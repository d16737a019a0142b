namespace Chip8.Numeral

/-! Numbers in positional notation. `digits` and `value` are inverse to each other; the printed
    forms below differ only in base, letter case and least width. -/

/-- The digits of a number, most significant first. Only zero itself begins with a zero. -/
def digits (base number : Nat) : List Nat :=
  if base < 2 ∨ number < base then [number]
  else digits base (number / base) ++ [number % base]
termination_by number
decreasing_by
  rename_i large
  exact Nat.div_lt_self (by omega) (by omega)

/-- The number that a list of digits stands for, leading zeros included. -/
def value (base : Nat) (digits : List Nat) : Nat :=
  digits.foldl (fun total digit => base * total + digit) 0

theorem value_append_single (base : Nat) (front : List Nat) (last : Nat) :
    value base (front ++ [last]) = base * value base front + last := by
  simp only [value, List.foldl_append, List.foldl_cons, List.foldl_nil]

theorem value_digits (base number : Nat) : value base (digits base number) = number := by
  fun_induction digits base number with
  | case1 number small =>
      simp only [value, List.foldl_cons, List.foldl_nil, Nat.mul_zero, Nat.zero_add]
  | case2 number large ih =>
      rw [value_append_single, ih]
      exact Nat.div_add_mod number base

def upperDigit (digit : Nat) : Char :=
  if digit < 10 then Char.ofNat (48 + digit) else Char.ofNat (55 + digit)

def lowerDigit (digit : Nat) : Char :=
  if digit < 10 then Char.ofNat (48 + digit) else Char.ofNat (87 + digit)

/-- What a character counts for as a digit of a base of at most sixteen, in either letter case. -/
def digitValue? (base : Nat) (character : Char) : Option Nat :=
  let code := character.toNat
  let digit? :=
    if 48 ≤ code ∧ code ≤ 57 then some (code - 48)
    else if 65 ≤ code ∧ code ≤ 70 then some (code - 55)
    else if 97 ≤ code ∧ code ≤ 102 then some (code - 87)
    else none
  digit?.filter (· < base)

/-- A sign if there is one, then the digits filled with zeros from the left, so that the whole has
    at least `width` characters. The sign counts towards the width. -/
def signed (digit : Nat → Char) (base width : Nat) (number : Int) : String :=
  let sign := if number < 0 then ['-'] else []
  let body := (digits base number.natAbs).map digit
  String.ofList (sign ++ List.replicate (width - sign.length - body.length) '0' ++ body)

def decimal (number : Int) : String :=
  signed upperDigit 10 0 number

def hex (width : Nat) (number : Int) : String :=
  signed upperDigit 16 width number

/-- Lower-case hexadecimal with its base mark, which stands after the sign. -/
def markedHex (number : Int) : String :=
  (if number < 0 then "-0x" else "0x") ++ signed lowerDigit 16 0 number.natAbs

/-! Decimal numbers are neither read nor written beyond a number of digits. Where a base is a power
    of two there is no such limit. -/

@[irreducible] def digitLimit : Nat := 4300

/-- Leading zeros count as well. -/
def Readable (base : Nat) (digits : List Nat) : Prop :=
  base = 10 → digits.length ≤ digitLimit

instance (base : Nat) (digits : List Nat) : Decidable (Readable base digits) :=
  inferInstanceAs (Decidable (base = 10 → digits.length ≤ digitLimit))

def Writable (number : Int) : Prop :=
  number.natAbs < Nat.pow 10 digitLimit

instance (number : Int) : Decidable (Writable number) :=
  inferInstanceAs (Decidable (number.natAbs < Nat.pow 10 digitLimit))

/-- What is said of a number beyond the limit. How many digits it has is known only where they were
    given. -/
def limitText (given : Option Nat) : String :=
  "Exceeds the limit (" ++ decimal digitLimit ++ " digits) for integer string conversion" ++
    (match given with
      | some count => ": value has " ++ decimal count ++ " digits"
      | none => "") ++
    "; use sys.set_int_max_str_digits() to increase the limit"

end Chip8.Numeral
