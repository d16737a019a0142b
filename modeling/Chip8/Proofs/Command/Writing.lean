import Chip8.Command.Files
import Chip8.Proofs.Command.Filing
import Chip8.Proofs.Outcome

namespace Chip8.Command

/-! Plain files keep the laws of files. Among them a file can be written wherever its path leads
    through directories, and to none. -/

namespace Place

/-- The places that names lead to one after another. -/
def through (place : Place) : List String → List Place
  | [] => []
  | name :: rest => place.step name :: (place.step name).through rest

theorem length_through (place : Place) (names : List String) :
    (place.through names).length = names.length := by
  induction names generalizing place with
  | nil => rfl
  | cons name rest ih => exact congrArg (· + 1) (ih _)

end Place

namespace Path

variable {path : Path}

/-- The directories that a path leads through. -/
def crossed (path : Path) : List Place :=
  path.start.through path.parent.names

theorem text_parent (named : path.names ≠ []) :
    path.parent.text = "." ∨ ∃ rest, path.text = path.parent.text ++ rest := by
  have joined : ∃ rest,
      "/".intercalate path.names = "/".intercalate path.names.dropLast ++ rest := by
    by_cases alone : path.names.dropLast = []
    · exact ⟨"/".intercalate path.names, by simp [alone]⟩
    · refine ⟨"/" ++ path.names.getLast named, ?_⟩
      have split := String.intercalate_append_of_ne_nil (s := "/") alone
        (List.cons_ne_nil (path.names.getLast named) [])
      rw [List.dropLast_append_getLast named, String.intercalate_singleton] at split
      rw [split, String.append_assoc]
  obtain ⟨rest, joined⟩ := joined
  obtain ⟨anchor, names⟩ := path
  cases anchor with
  | here =>
      by_cases alone : names.dropLast.isEmpty
      · exact Or.inl (if_pos alone)
      · have several : ¬ names.isEmpty := by simpa using named
        refine Or.inr ⟨rest, ?_⟩
        rw [text, text, parent, if_neg alone, if_neg several]
        exact joined
  | root => exact Or.inr ⟨rest, by rw [text, joined, ← String.append_assoc]; rfl⟩
  | doubleRoot => exact Or.inr ⟨rest, by rw [text, joined, ← String.append_assoc]; rfl⟩

end Path

namespace Files

variable {files : Files} {path : Path} {place : Place} {names : List String}

def IsPlain (files : Files) (place : Place) : Prop :=
  (files.find? place).isSome ∧ ¬ files.IsDirectory place

instance (files : Files) (place : Place) : Decidable (files.IsPlain place) := by
  unfold IsPlain
  infer_instance

/-- Files among which one can be written at a path. Some spellings and names are refused whatever
    the files are, and a path must not lead back to a directory that it led through. -/
structure Admits (files : Files) (depthLimit : Nat) (path : Path) : Prop where
  whole : '\x00' ∉ path.text.toList
  text_short : path.text.utf8ByteSize ≤ pathLimit
  names_short : ∀ name ∈ path.names, name.utf8ByteSize ≤ nameLimit
  not_directory : ¬ files.IsDirectory path.place
  not_through : ∀ outer ∈ path.crossed, ¬ files.IsPlain outer
  not_back : path.place ∉ path.crossed
  shallow : (path.crossed.dropWhile fun outer => files.IsDirectory outer).length ≤ depthLimit

theorem isDirectory_start : files.IsDirectory path.start := by
  refine Or.inl ?_
  rw [Path.start]
  cases path.anchor <;> rfl

/-- At a path without names lies the directory that the path counts from. -/
theorem names_ne_nil (file : ¬ files.IsDirectory path.place) : path.names ≠ [] := by
  intro nameless
  rw [Path.place, nameless, List.foldl_nil] at file
  exact file isDirectory_start

theorem check_eq_ok_iff :
    check path = .ok () ↔ '\x00' ∉ path.text.toList ∧ path.text.utf8ByteSize ≤ pathLimit := by
  simp only [check, List.contains_iff_mem]
  by_cases cut : '\x00' ∈ path.text.toList
  · simp [cut]
  · by_cases long : path.text.utf8ByteSize > pathLimit
    · simp [cut, long]
    · simp [cut, Nat.not_lt.mp long]

theorem check_parent (named : path.names ≠ []) (checked : check path = .ok ()) :
    check path.parent = .ok () := by
  rw [check_eq_ok_iff] at checked ⊢
  obtain ⟨whole, short⟩ := checked
  rcases path.text_parent named with here | ⟨rest, prefixed⟩
  · rw [here]
    decide
  · rw [prefixed, String.toList_append, List.mem_append, not_or] at whole
    rw [prefixed, String.utf8ByteSize_append] at short
    exact ⟨whole.1, by omega⟩

theorem follow_eq_ok (short : ∀ name ∈ names, name.utf8ByteSize ≤ nameLimit)
    (entered : names ≠ [] → files.IsDirectory place)
    (further : ∀ outer ∈ place.through names.dropLast, files.IsDirectory outer) :
    files.follow path place names = .ok (names.foldl Place.step place) := by
  induction names generalizing place with
  | nil => rfl
  | cons name rest ih =>
      obtain ⟨here, short⟩ := List.forall_mem_cons.mp short
      rw [follow, if_pos (entered (by simp)), if_neg (Nat.not_lt.mpr here), List.foldl_cons]
      cases rest with
      | nil => rfl
      | cons second rest =>
          obtain ⟨next, further⟩ := List.forall_mem_cons.mp further
          exact ih short (fun _ => next) further

/-- Names that lead anywhere lead where they always do, and through directories only. -/
theorem of_follow_eq_ok {result : Place} (followed : files.follow path place names = .ok result) :
    result = names.foldl Place.step place ∧ (∀ name ∈ names, name.utf8ByteSize ≤ nameLimit) ∧
      (names ≠ [] → files.IsDirectory place) ∧
        ∀ outer ∈ place.through names.dropLast, files.IsDirectory outer := by
  induction names generalizing place with
  | nil =>
      cases followed
      exact ⟨rfl, by simp, by simp, by simp [Place.through]⟩
  | cons name rest ih =>
      rw [follow] at followed
      split at followed
      · rename_i entered
        split at followed
        · cases followed
        · rename_i fits
          obtain ⟨reached, short, next, further⟩ := ih followed
          refine ⟨reached, List.forall_mem_cons.mpr ⟨Nat.not_lt.mp fits, short⟩,
            fun _ => entered, ?_⟩
          cases rest with
          | nil => simp [Place.through]
          | cons second rest =>
              exact List.forall_mem_cons.mpr ⟨next (List.cons_ne_nil second rest), further⟩
      · split at followed <;> cases followed

theorem of_locate_eq_ok (located : files.locate path = .ok place) :
    place = path.place ∧ check path = .ok () := by
  obtain ⟨_, checked, followed⟩ := bind_eq_ok_iff.mp located
  exact ⟨(of_follow_eq_ok followed).1, checked⟩

/-- The same files, among more directories. -/
structure Grows (files larger : Files) : Prop where
  directory {place : Place} : files.IsDirectory place → larger.IsDirectory place
  plain {place : Place} : (files.find? place).isSome → (larger.find? place).isSome

theorem Grows.locate {larger : Files} (grows : files.Grows larger)
    (located : files.locate path = .ok place) : larger.locate path = .ok place := by
  obtain ⟨_, checked, followed⟩ := bind_eq_ok_iff.mp located
  obtain ⟨rfl, short, entered, further⟩ := of_follow_eq_ok followed
  rw [Files.locate, checked]
  exact follow_eq_ok short (fun named => grows.directory (entered named))
    fun outer member => grows.directory (further outer member)

variable {bytes : List UInt8}

/-- What is read is the file where the path leads. -/
theorem of_read_eq_ok (found : files.read path = .ok bytes) :
    files.locate path = .ok path.place ∧ ¬ files.IsDirectory path.place ∧
      files.find? path.place = some bytes := by
  obtain ⟨place, located, found⟩ := bind_eq_ok_iff.mp found
  obtain ⟨rfl, _⟩ := of_locate_eq_ok located
  split at found
  · cases found
  · rename_i file
    split at found
    · rename_i held
      cases found
      exact ⟨located, file, held⟩
    · cases found

/-- The same files, with more directories known. -/
def withDirectories (files : Files) (made : List Place) : Files :=
  { files with directories := made ++ files.directories }

theorem isDirectory_withDirectories {made : List Place} :
    (files.withDirectories made).IsDirectory place ↔ place ∈ made ∨ files.IsDirectory place := by
  simp only [IsDirectory, withDirectories, List.mem_append]
  rw [or_assoc, or_left_comm]

theorem grows_withDirectories (made : List Place) : files.Grows (files.withDirectories made) where
  directory := fun known => isDirectory_withDirectories.mpr (Or.inr known)
  plain := id

variable {depthLimit : Nat}

/-- Whether all directories could be made or not, nothing but directories is. -/
theorem makeDirectories_made (files : Files) (depthLimit : Nat) (path : Path) (place : Place)
    (making : Bool) (names : List String) :
    ∃ made, (files.makeDirectories depthLimit path place making names).2 =
      files.withDirectories made := by
  induction names generalizing files place making with
  | nil => exact ⟨[], rfl⟩
  | cons name rest ih =>
      simp only [makeDirectories]
      split
      · exact ⟨[], rfl⟩
      · split
        · exact ih files _ making
        · split
          · exact ⟨[], rfl⟩
          · split
            · exact ⟨[], rfl⟩
            · obtain ⟨made, same⟩ := ih (files.withDirectories [place.step name]) _ true
              refine ⟨made ++ [place.step name], ?_⟩
              simpa [withDirectories] using same

theorem makeParents_made (files : Files) (depthLimit : Nat) (path : Path) :
    ∃ made, (files.makeParents depthLimit path).2 = files.withDirectories made := by
  rw [makeParents]
  split
  · exact ⟨[], rfl⟩
  · exact makeDirectories_made ..

/-- Directories are made where the names lead and nowhere else. -/
theorem makeDirectories_eq_ok (path : Path) {making : Bool}
    (short : ∀ name ∈ names, name.utf8ByteSize ≤ nameLimit)
    (free : ∀ outer ∈ place.through names, ¬ files.IsPlain outer)
    (shallow : making = false →
      ((place.through names).dropWhile fun outer => files.IsDirectory outer).length ≤
        depthLimit) :
    ∃ made, files.makeDirectories depthLimit path place making names =
        (.ok (), files.withDirectories made) ∧
      ∀ outer, (files.withDirectories made).IsDirectory outer ↔
        outer ∈ place.through names ∨ files.IsDirectory outer := by
  induction names generalizing files place making with
  | nil => exact ⟨[], rfl, by simp [isDirectory_withDirectories, Place.through]⟩
  | cons name rest ih =>
      obtain ⟨here, short⟩ := List.forall_mem_cons.mp short
      obtain ⟨first, free⟩ := List.forall_mem_cons.mp free
      simp only [makeDirectories, if_neg (Nat.not_lt.mpr here)]
      by_cases known : files.IsDirectory (place.step name)
      · rw [if_pos known]
        have shallow : making = false →
            (((place.step name).through rest).dropWhile fun outer =>
              files.IsDirectory outer).length ≤ depthLimit := fun idle => by
          simpa [Place.through, known] using shallow idle
        obtain ⟨made, done, reached⟩ := ih short free shallow
        refine ⟨made, done, fun outer => ?_⟩
        rw [reached, Place.through, List.mem_cons, or_assoc]
        refine (or_iff_right_of_imp fun same => Or.inr ?_).symm
        exact same ▸ known
      · have vacant : ¬ (files.find? (place.step name)).isSome := fun found => first ⟨found, known⟩
        have near : making = false → rest.length < depthLimit := fun idle => by
          simpa [Place.through, known, Place.length_through] using shallow idle
        rw [if_neg known, if_neg vacant, if_neg (by simpa using near)]
        have free : ∀ outer ∈ (place.step name).through rest,
            ¬ (files.withDirectories [place.step name]).IsPlain outer := fun outer member plain =>
          free outer member
            ⟨plain.1, fun known => plain.2 (isDirectory_withDirectories.mpr (Or.inr known))⟩
        obtain ⟨made, done, reached⟩ := ih short free fun idle : true = false => by cases idle
        refine ⟨made ++ [place.step name], ?_, fun outer => ?_⟩
        · simpa [withDirectories] using done
        · have reached := reached outer
          simp only [isDirectory_withDirectories, List.mem_singleton] at reached
          rw [isDirectory_withDirectories, List.mem_append, List.mem_singleton, or_assoc, reached,
            Place.through, List.mem_cons, or_left_comm, or_assoc]

/-- The directories around an admitted path can be made, and a file at it can then be written. -/
theorem Admits.makes (admitted : files.Admits depthLimit path) :
    ∃ prepared, files.makeParents depthLimit path = (.ok (), prepared) ∧
      prepared.locate path = .ok path.place ∧ ¬ prepared.IsDirectory path.place := by
  have checked : check path = .ok () := check_eq_ok_iff.mpr ⟨admitted.whole, admitted.text_short⟩
  have named : path.names ≠ [] := names_ne_nil admitted.not_directory
  have short : ∀ name ∈ path.names.dropLast, name.utf8ByteSize ≤ nameLimit := fun name member =>
    admitted.names_short name (List.mem_of_mem_dropLast member)
  obtain ⟨made, prepared, reached⟩ := makeDirectories_eq_ok path.parent short
    admitted.not_through fun _ : false = false => admitted.shallow
  refine ⟨files.withDirectories made, ?_, ?_, ?_⟩
  · rw [makeParents, check_parent named checked]
    exact prepared
  · rw [locate, checked]
    exact follow_eq_ok admitted.names_short (fun _ => isDirectory_start) fun outer member =>
      (reached outer).mpr (Or.inl member)
  · rw [reached, not_or]
    exact ⟨admitted.not_back, admitted.not_directory⟩

/-! What writing does to the files. -/

theorem grows_insert (files : Files) (place : Place) (bytes : List UInt8) :
    files.Grows (files.insert place bytes) where
  directory := by
    rintro outer (start | known | ⟨entry, member, around⟩)
    · exact Or.inl start
    · exact Or.inr (Or.inl known)
    · refine Or.inr (Or.inr ?_)
      by_cases same : entry.1 = place
      · exact ⟨(place, bytes), List.mem_cons_self, same ▸ around⟩
      · exact ⟨entry, List.mem_cons_of_mem _ (by simpa [same] using member), around⟩
  plain := by
    intro other held
    by_cases same : other = place
    · rw [same, find?_insert_self]
      rfl
    · rwa [find?_insert_of_ne _ _ same]

theorem grows_refl (files : Files) : files.Grows files := ⟨id, id⟩

theorem grows_write (files : Files) (path : Path) (bytes : List UInt8) :
    files.Grows (files.write path bytes).2 := by
  rw [write]
  split
  · exact grows_refl files
  · split
    · exact grows_refl files
    · exact grows_insert ..

/-- A file that is written is the one where its path leads. -/
theorem of_write_eq_ok (done : (files.write path bytes).1 = .ok ()) :
    files.locate path = .ok path.place ∧
      (files.write path bytes).2 = files.insert path.place bytes := by
  rw [write] at done ⊢
  split at done
  · cases done
  · rename_i place located
    obtain ⟨rfl, _⟩ := of_locate_eq_ok located
    rw [located]
    split at done
    · cases done
    · rename_i file
      exact ⟨rfl, if_neg file ▸ rfl⟩

/-- Where a file could not be written, all files are as they were. -/
theorem write_eq_or (files : Files) (path : Path) (bytes : List UInt8) :
    (files.write path bytes).1 = .ok () ∨ (files.write path bytes).2 = files := by
  rw [write]
  split
  · exact Or.inr rfl
  · split
    · exact Or.inr rfl
    · exact Or.inl rfl

/-- A name that is too long is refused where it would be looked up, whatever files there are. -/
theorem write_eq_nameTooLong {name : String} (checked : check path = .ok ())
    (alone : path.names = [name]) (long : nameLimit < name.utf8ByteSize) :
    files.makeParents depthLimit path = (.ok (), files) ∧
      files.write path bytes = (.error (.nameTooLong path), files) := by
  constructor
  · rw [makeParents, check_parent (by simp [alone]) checked, Path.parent, alone]
    rfl
  · have located : files.locate path = .error (.nameTooLong path) := by
      refine bind_eq_error_iff.mpr (Or.inr ⟨(), checked, ?_⟩)
      rw [alone, follow, if_pos isDirectory_start, if_pos long]
    rw [write, located]

end Files

namespace World

theorem perform_makeParents (depthLimit : Nat) (path : Path) (world : World) :
    perform ((World.system depthLimit).makeParents path) world =
      ((world.files.makeParents depthLimit path).1,
        { world with files := (world.files.makeParents depthLimit path).2 }) := rfl

theorem perform_write (depthLimit : Nat) (path : Path) (bytes : List UInt8) (world : World) :
    perform ((World.system depthLimit).write path bytes) world =
      ((world.files.write path bytes).1,
        { world with files := (world.files.write path bytes).2 }) := rfl

/-- The file at a path, if there is one. -/
def leads (world : World) (path : Path) : Option Place :=
  (world.files.locate path).toOption.filter fun place => (world.files.find? place).isSome

variable {world : World} {path : Path} {place : Place}

theorem leads_eq_some_iff :
    world.leads path = some place ↔
      world.files.locate path = .ok place ∧ (world.files.find? place).isSome := by
  rw [leads, Option.filter_eq_some_iff]
  cases world.files.locate path <;> simp [Except.toOption]

theorem place_of_leads (led : world.leads path = some place) : place = path.place :=
  (Files.of_locate_eq_ok (leads_eq_some_iff.mp led).1).1

theorem leadStill_of_grows {larger : World} (grows : world.files.Grows larger.files) :
    LeadStill leads world larger := by
  intro path place led
  obtain ⟨located, held⟩ := leads_eq_some_iff.mp led
  exact leads_eq_some_iff.mpr ⟨grows.locate located, grows.plain held⟩

/-- Where a file was written, the path leads to it. -/
theorem leads_write {bytes : List UInt8} (done : (world.files.write path bytes).1 = .ok ()) :
    let after : World := { world with files := (world.files.write path bytes).2 }
    after.leads path = some path.place ∧ after.files.find? path.place = some bytes := by
  obtain ⟨located, result⟩ := Files.of_write_eq_ok done
  have grows := Files.grows_write world.files path bytes
  have held : Files.find? (world.files.write path bytes).2 path.place = some bytes := by
    rw [result]
    exact Files.find?_insert_self ..
  exact ⟨leads_eq_some_iff.mpr ⟨grows.locate located, Option.isSome_of_eq_some held⟩, held⟩

/-- Plain files are told apart by where they lie, and none of them is a device. -/
def filing (depthLimit : Nat) : Filing (World.system depthLimit) Place where
  leads := leads
  holds world place := world.files.find? place
  device _ := False
  holds_read _ _ := rfl
  leads_read _ _ _ _ := id
  found path world bytes found := by
    obtain ⟨located, file, held⟩ := Files.of_read_eq_ok found
    exact ⟨Files.names_ne_nil file, path.place,
      leads_eq_some_iff.mpr ⟨located, Option.isSome_of_eq_some held⟩, Or.inr held⟩
  holds_makeParents path world := by
    obtain ⟨made, same⟩ := Files.makeParents_made world.files depthLimit path
    rw [perform_makeParents, same]
    rfl
  leads_makeParents path world := by
    obtain ⟨made, same⟩ := Files.makeParents_made world.files depthLimit path
    rw [perform_makeParents, same]
    exact leadStill_of_grows (Files.grows_withDirectories made)
  leads_write path bytes world := leadStill_of_grows (Files.grows_write world.files path bytes)
  holds_write path bytes world place elsewhere := by
    rw [perform_write]
    rcases Files.write_eq_or world.files path bytes with done | same
    · rw [(Files.of_write_eq_ok done).2]
      exact Files.find?_insert_of_ne _ _ fun there => elsewhere (there ▸ (leads_write done).1)
    · rw [same]
  written path bytes world done := by
    obtain ⟨led, held⟩ := leads_write done
    exact ⟨path.place, led, Or.inr held⟩

end World

end Chip8.Command
