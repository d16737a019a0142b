import Chip8.Proofs.Bytes
import Chip8.Proofs.Plain.Drawing

namespace Chip8.Plain

/-! What instructions do, plain and in range. -/

open Act

variable {ρ α β γ : Type} {machine : Machine ρ}

theorem mirror_bind {act : Act ρ β} {outcome : Except Fault α} {reply : α → β}
    {effect : α → Machine ρ} {next : β → Act ρ γ} {finalReply : α → γ} {final : α → Machine ρ}
    (done : act machine.plain = mirror machine outcome reply effect)
    (further : ∀ result, outcome = .ok result →
      next (reply result) (effect result).plain = (.ok (finalReply result), (final result).plain)) :
    (act >>= next) machine.plain = mirror machine outcome finalReply final := by
  cases outcome with
  | error fault => exact bind_of_error next done
  | ok result => exact (bind_of_ok next done).trans (further result rfl)

theorem mirror_map {outcome : Except Fault α} {change : α → β} {reply : β → γ}
    {effect : β → Machine ρ} :
    mirror machine (outcome >>= fun result => .ok (change result)) reply effect =
      mirror machine outcome (fun result => reply (change result))
        fun result => effect (change result) := by
  cases outcome <;> rfl

theorem ofInt_address (address : UInt16) : UInt16.ofInt address.toNat = address := by
  have bound := address.toNat_lt
  have range : 0 ≤ (address.toNat : Int) ∧ (address.toNat : Int) ≤ 0xFFFF := by omega
  exact UInt16.toNat_inj.mp (Int.ofNat_inj.mp (toNat_ofInt_address range))

/-! One instruction. -/

theorem execBare_plain (op : BareOp) :
    Plain.execBare op machine.plain =
      mirror machine (machine.execBare op) (fun _ => ()) fun after => after := by
  cases op with
  | clearScreen => exact fill_plain 0
  | ret =>
      rw [Machine.execBare, mirror_map]
      exact mirror_bind pop_plain fun result _ => rfl

theorem execAddress_plain (addr : Address) (op : AddressOp) :
    Plain.execAddress addr.val op machine.plain =
      mirror machine (machine.execAddress addr op) (fun _ => ()) fun after => after := by
  have same : (addr.val : Int) = (UInt16.ofNat addr.val).toNat := by
    have bound := addr.isLt
    simp
    omega
  cases op with
  | jump =>
      rw [Plain.execAddress, setPc, write_apply, same]
      rfl
  | call =>
      have pushed : push machine.plain.pc machine.plain = _ := push_plain machine.plain.pc
      rw [Machine.plain, ofInt_address, ← Machine.plain] at pushed
      rw [Machine.execAddress, mirror_map, Plain.execAddress, read_bind]
      apply mirror_bind pushed
      intro stack _
      rw [setPc, write_apply, same]
      rfl
  | loadIndex =>
      rw [Plain.execAddress, setIndex, write_apply, same]
      rfl
  | jumpOffset =>
      have offset := add_address (machine.register (.ofNat 0)).toUInt16 (UInt16.ofNat addr.val)
      rw [UInt8.toNat_toUInt16] at offset
      have first : register 0 machine.plain =
          (.ok ((machine.register (.ofNat 0)).toNat : Int), machine.plain) :=
        register_plain (.ofNat 0)
      rw [Plain.execAddress, bind_of_ok _ first, same, offset]
      rfl

theorem execImmediate_plain [ByteSource ρ] (x : Register) (byte : UInt8) (op : ImmediateOp) :
    Plain.execImmediate x.val byte.toNat op machine.plain =
      (.ok (), (machine.execImmediate x byte op).plain) := by
  have value : register x.val machine.plain = _ := register_plain x
  cases op with
  | skipEqual =>
      rw [Plain.execImmediate, bind_of_ok _ value, skipIf_plain, beq_byte]
      rfl
  | skipUnequal =>
      rw [Plain.execImmediate, bind_of_ok _ value, skipIf_plain, bne, beq_byte]
      rfl
  | load => exact setRegister_plain x rfl
  | add =>
      rw [Plain.execImmediate, bind_of_ok _ value]
      exact setRegister_plain x (add_byte _ _)
  | random =>
      let drawn := ByteSource.draw machine.random
      have written : setRegister x.val (Int.land drawn.1.toNat byte.toNat)
          ({ machine with random := drawn.2 } : Machine ρ).plain = _ :=
        setRegister_plain x (land_byte drawn.1 byte)
      rw [Plain.execImmediate, read_bind, write_bind]
      exact written

theorem execPair_plain (x y : Register) (op : PairOp) :
    Plain.execPair x.val y.val op machine.plain =
      (.ok (), (machine.execPair x y op).plain) := by
  have first : register x.val machine.plain = _ := register_plain x
  have second : register y.val machine.plain = _ := register_plain y
  cases op with
  | skipEqual =>
      rw [Plain.execPair, bind_of_ok _ first, bind_of_ok _ second, skipIf_plain, beq_byte]
      rfl
  | skipUnequal =>
      rw [Plain.execPair, bind_of_ok _ first, bind_of_ok _ second, skipIf_plain, bne, beq_byte]
      rfl
  | load =>
      rw [Plain.execPair, bind_of_ok _ second]
      exact setRegister_plain x rfl
  | or =>
      rw [Plain.execPair, bind_of_ok _ first, bind_of_ok _ second]
      exact setRegister_plain x (lor_byte _ _)
  | and =>
      rw [Plain.execPair, bind_of_ok _ first, bind_of_ok _ second]
      exact setRegister_plain x (land_byte _ _)
  | xor =>
      rw [Plain.execPair, bind_of_ok _ first, bind_of_ok _ second]
      exact setRegister_plain x (xor_byte _ _)
  | add =>
      rw [Plain.execPair, bind_of_ok _ first, bind_of_ok _ second]
      exact setWithFlag_plain x (add_byte _ _) (flag_byte (by omega))
  | subtract =>
      rw [Plain.execPair, bind_of_ok _ first, bind_of_ok _ second]
      exact setWithFlag_plain x (sub_byte _ _) (flag_byte Int.ofNat_lt)
  | subtractFrom =>
      rw [Plain.execPair, bind_of_ok _ first, bind_of_ok _ second]
      exact setWithFlag_plain x (sub_byte _ _) (flag_byte Int.ofNat_lt)
  | shiftRight =>
      rw [Plain.execPair, bind_of_ok _ first]
      refine setWithFlag_plain x (shiftRight_byte _) ?_
      rw [UInt8.toNat_and]
      exact congrArg Int.ofNat (Nat.and_one_is_mod _).symm
  | shiftLeft =>
      rw [Plain.execPair, bind_of_ok _ first, read_bind]
      have lost : Int.land (machine.register x).toNat 0x80 = (machine.register x &&& 0x80).toNat :=
        land_byte _ 0x80
      have normal : ((machine.register x &&& 0x80).toNat : Int) / (0x80 : Int) =
          ((machine.register x &&& 0x80) >>> 7).toNat := by
        rw [UInt8.toNat_shiftRight]
        exact congrArg Int.ofNat (Nat.shiftRight_eq_div_pow _ 7).symm
      refine setWithFlag_plain x (shiftLeft_byte _) ?_
      rw [lost, normal]
      change (if machine.settings.normalizeShiftFlag then _ else _) = _
      cases machine.settings.normalizeShiftFlag <;> rfl

/-- The move of the index is the same for storing and loading. -/
theorem advanceIndex_plain (x : Register) :
    advanceIndex x.val machine.plain =
      (.ok (), { machine with index := machine.indexAfterTransfer x }.plain) := by
  have moved := add_address machine.index (UInt16.ofNat (x.val + 1))
  have past : (UInt16.ofNat (x.val + 1)).toNat = x.val + 1 := by
    have bound := x.isLt
    rw [UInt16.toNat_ofNat']
    omega
  rw [past, Int.natCast_add, ← Int.add_assoc] at moved
  rw [advanceIndex, read_bind, Machine.indexAfterTransfer,
    show machine.plain.settings = machine.settings from rfl]
  cases machine.settings.incrementIndex with
  | false => rfl
  | true =>
      change setIndex (((machine.index.toNat : Int) + x.val + (1 : Nat)) % 0x10000)
        machine.plain = _
      rw [moved]
      rfl

theorem skipPressed_plain (x : Register) :
    keyPressed (((machine.register x).toNat : Int) % 0x10) machine.plain =
      (.ok (machine.keypad.isPressed (Machine.execRegister.key x machine)), machine.plain) := by
  have found : Keypad.key .reading (((machine.register x).toNat : Int) % 0x10) =
      .ok (Machine.execRegister.key x machine) := by
    rw [Keypad.key, if_neg (by omega), if_pos (by omega)]
    refine congrArg Except.ok (Fin.ext ?_)
    simp only [Machine.execRegister.key, Nibble.ofNat, Fin.val_ofNat]
    omega
  rw [keyPressed_plain, Keypad.keyPressed, found]
  rfl

/-- The decimal digits of a byte are bytes. -/
theorem digits_byte (byte : UInt8) :
    bytes [(byte.toNat : Int) / 100, (byte.toNat : Int) / 10 % 10, (byte.toNat : Int) % 10] =
      .ok (ofBytes [byte / 100, byte / 10 % 10, byte % 10]) := by
  have same : [(byte.toNat : Int) / 100, (byte.toNat : Int) / 10 % 10, (byte.toNat : Int) % 10] =
      ofBytes [byte / 100, byte / 10 % 10, byte % 10] := by
    simp [ofBytes, UInt8.toNat_div, UInt8.toNat_mod]
  rw [same, bytes_ofBytes]

theorem sliceEnd_registers (length : Nat) (x : Register) :
    sliceEnd length 0 = 0 ∧ sliceEnd length (x.val + 1) = x.val + 1 :=
  ⟨sliceEnd_natCast length 0, sliceEnd_natCast length (x.val + 1)⟩

theorem slice_registers (x : Register) :
    slice machine.plain.registers 0 (x.val + 1) =
      ofBytes (machine.registers.toList.take (x.val + 1)) := by
  obtain ⟨first, last⟩ := sliceEnd_registers machine.plain.registers.length x
  rw [slice, first, last]
  simp [Machine.plain, ofBytes]

/-- The first registers replaced by as many bytes. -/
theorem toList_loaded (x : Register) {block : List UInt8} (size : block.length = x.val + 1) :
    (Vector.ofFn fun k : Register =>
        if k ≤ x then block.getD k.val 0 else machine.register k).toList =
      block ++ machine.registers.toList.drop (x.val + 1) := by
  have bound := x.isLt
  apply List.ext_getElem (by simp [size]; omega)
  intro k inside _
  have short : k < 16 := by
    rw [Vector.length_toList] at inside
    exact inside
  rw [Vector.getElem_toList, Vector.getElem_ofFn]
  by_cases replaced : k < block.length
  · have low : (⟨k, short⟩ : Register) ≤ x := Nat.le_of_lt_succ (lt_of_lt_of_eq replaced size)
    rw [if_pos low, List.getElem_append_left replaced, List.getD_eq_getElem _ _ replaced]
  · have high : ¬ (⟨k, short⟩ : Register) ≤ x := fun low =>
      replaced (lt_of_lt_of_eq (Nat.lt_succ_of_le low) size.symm)
    have place : x.val + 1 + (k - block.length) = k := by omega
    rw [if_neg high, List.getElem_append_right (Nat.not_lt.mp replaced)]
    simp only [List.getElem_drop, place, Vector.getElem_toList]
    rfl

theorem splice_registers (machine : Machine ρ) (x : Register) {block : List UInt8}
    (size : block.length = x.val + 1) :
    splice machine.plain.registers 0 (x.val + 1) (ofBytes block) =
      ofBytes (Vector.ofFn fun k : Register =>
        if k ≤ x then block.getD k.val 0 else machine.register k).toList := by
  obtain ⟨first, last⟩ := sliceEnd_registers machine.plain.registers.length x
  rw [splice, first, last, Nat.zero_max, List.take_zero, List.nil_append, toList_loaded x size]
  simp [Machine.plain, ofBytes]

theorem length_readBlock {memory : Memory} {address : Int} {size : Nat} {block : List UInt8}
    (read : memory.readBlock address size = .ok block) : block.length = size := by
  rw [Memory.readBlock, Memory.access] at read
  split at read
  · next range =>
      cases read
      simp only [Memory.InRange] at range
      have positive : ¬ address + size < 0 := by omega
      rw [Memory.blockEnd, if_neg positive, Array.length_toList, Array.size_extract,
        Vector.size_toArray]
      omega
  · cases read

theorem execRegister_plain (x : Register) (op : RegisterOp) :
    Plain.execRegister x.val op machine.plain =
      mirror machine (machine.execRegister x op) (fun _ => ()) fun after => after := by
  have value : register x.val machine.plain = _ := register_plain x
  cases op with
  | skipPressed =>
      rw [Plain.execRegister, bind_of_ok _ value, bind_of_ok _ (skipPressed_plain x)]
      exact skipIf_plain _
  | skipReleased =>
      rw [Plain.execRegister, bind_of_ok _ value, bind_of_ok _ (skipPressed_plain x)]
      exact skipIf_plain _
  | readDelay => exact setRegister_plain x rfl
  | awaitKey => rfl
  | setDelay =>
      rw [Plain.execRegister, bind_of_ok _ value]
      rfl
  | setSound =>
      rw [Plain.execRegister, bind_of_ok _ value]
      rfl
  | addIndex =>
      have moved := add_address machine.index (machine.register x).toUInt16
      rw [UInt8.toNat_toUInt16] at moved
      rw [Plain.execRegister, read_bind, bind_of_ok _ value]
      change setIndex (((machine.index.toNat : Int) + _) % 0x10000) machine.plain = _
      rw [moved]
      rfl
  | glyph =>
      have shape : ((machine.register x).toNat : Int) % 0x10 * 5 =
          ((machine.register x &&& 0x0F).toUInt16 * 5).toNat := by
        have digit : (machine.register x &&& 0x0F).toNat = (machine.register x).toNat % 16 := by
          rw [UInt8.toNat_and]
          exact Nat.and_two_pow_sub_one_eq_mod _ 4
        rw [UInt16.toNat_mul, UInt8.toNat_toUInt16, digit]
        change _ = ((_ % 16 * 5 % 65536 : Nat) : Int)
        omega
      rw [Plain.execRegister, bind_of_ok _ value, shape]
      rfl
  | digits =>
      rw [Machine.execRegister, mirror_map, Plain.execRegister, bind_of_ok _ value, digits_byte,
        lift_bind, read_bind]
      exact writeBlock_plain _ _
  | store =>
      rw [Machine.execRegister, mirror_map, Plain.execRegister, read_bind, slice_registers,
        bytes_ofBytes, lift_bind, read_bind]
      exact mirror_bind (writeBlock_plain _ _) fun memory _ => advanceIndex_plain x
  | load =>
      rw [Machine.execRegister, mirror_map, Plain.execRegister, read_bind]
      apply mirror_bind (readBlock_plain _ _)
      intro block read
      have spliced := splice_registers machine x (length_readBlock read)
      rw [write_bind, spliced]
      -- What the registers are is of no account from here on, and comparing them entry by entry
      -- is slow.
      generalize (Vector.ofFn fun k : Register =>
        if k ≤ x then block.getD k.val 0 else machine.register k) = registers
      exact @advanceIndex_plain _ { machine with registers } x

theorem execDraw_plain (x y : Register) (n : Nibble) :
    Plain.execDraw x.val y.val n.val machine.plain =
      mirror machine (machine.execDraw x y n) (fun _ => ()) fun after => after := by
  rw [Machine.execDraw, mirror_map, Plain.execDraw, read_bind, bind_of_ok _ (register_plain x),
    bind_of_ok _ (register_plain y)]
  apply mirror_bind (draw_plain _ _ _ _)
  intro drawn _
  refine setRegister_plain Machine.flag ?_
  cases drawn.1 <;> rfl

theorem exec_plain [ByteSource ρ] (instruction : Instruction) :
    Plain.exec instruction machine.plain =
      mirror machine (machine.exec instruction) (fun _ => ()) fun after => after := by
  cases instruction with
  | bare op => exact execBare_plain op
  | address op addr => exact execAddress_plain addr op
  | immediate op x byte => exact execImmediate_plain x byte op
  | draw x y n => exact execDraw_plain x y n
  | pair op x y => exact execPair_plain x y op
  | register op x => exact execRegister_plain x op
  | invalid word =>
      have fetched : UInt16.ofInt ((machine.pc.toNat : Int) - 2) = machine.pc - 2 := by
        have bound := machine.pc.toNat_lt
        refine UInt16.toNat_inj.mp ?_
        rw [UInt16.ofInt, UInt16.toNat_ofNat', UInt16.toNat_sub]
        change _ = (65536 - 2 + _) % 65536
        omega
      change (Except.error (Refusal.fault (.invalidInstruction word _)), machine.plain) = _
      rw [show machine.plain.pc = machine.pc.toNat from rfl, fetched]
      rfl

end Chip8.Plain
