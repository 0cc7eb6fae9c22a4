import HostedPumpkin.Library.KeyedRows
import HostedPumpkin.Web.HostServer

/-!
`SnippetDataRepository`: the table of the snippets and the statements on it. The ids
stand in it as the text of their `Guid`, and it is on texts that the statements look
for a row. How the database compares two texts is a parameter; on the texts that
`Guid.ToString` writes it is equality.

`GetString` on a null throws, which `Get` and `All` avoid for the last two columns only.
-/

namespace HostedPumpkin

open Utf16

/-- The numbers of the enumeration. -/
def SnippetHealth.value : SnippetHealth → Int
  | .unknown => 0
  | .good => 1
  | .error => 2
  | .fatal => 3

/-- `ToColor`, on the number that a column holds. -/
def toColor (health : Int) : String :=
  if health = SnippetHealth.unknown.value then "white"
  else if health = SnippetHealth.good.value then "green"
  else if health = SnippetHealth.error.value then "gold"
  else if health = SnippetHealth.fatal.value then "red"
  else "aliceblue"

/-- The columns behind the id; a null is `none`. -/
structure SnippetColumns where
  assemblyBytes : List UInt8
  snippetSource : Option String
  usingDirectives : Option String
  snippetHealth : Int
  compilerVersion : Option String
  snippetClasses : Option String
deriving DecidableEq

/-- A row of the table `Snippets`. -/
structure SnippetRow where
  id : List CodeUnit
  columns : SnippetColumns
deriving DecidableEq

/-- `SnippetData` with all its properties. -/
structure StoredSnippet where
  id : Guid
  assemblyBytes : List UInt8
  snippetSource : String
  usingDirectives : String
  snippetHealth : Int
  compilerVersion : String
  snippetClasses : String
deriving DecidableEq

inductive RepositoryFault where
  | sqlNullValue
  | format
deriving DecidableEq, Repr

/-! ### Guids as text -/

def hexChar (nibble : Nat) : CodeUnit :=
  UInt16.ofNat (if nibble < 10 then 48 + nibble else 87 + nibble)

/-- The nibbles of a number, the most significant one first. -/
def nibbles (count number : Nat) : List Nat :=
  (List.range count).map fun i => number / 16 ^ (count - 1 - i) % 16

/-- Groups of 8, 4, 4, 4 and 12 digits. -/
def hyphenated (digits : List CodeUnit) : List CodeUnit :=
  digits.take 8 ++ 45 :: ((digits.drop 8).take 4 ++ 45 :: ((digits.drop 12).take 4 ++
    45 :: ((digits.drop 16).take 4 ++ 45 :: digits.drop 20)))

/-- `Guid.ToString()`. -/
def guidText (id : Guid) : List CodeUnit :=
  hyphenated ((nibbles 32 id.toNat).map hexChar)

theorem foldl_nibbles (count number : Nat) :
    (nibbles count number).foldl (fun n digit => 16 * n + digit) 0 = number % 16 ^ count := by
  induction count generalizing number with
  | zero => simp [nibbles, Nat.mod_one]
  | succ count ih =>
      have front : (List.range count).map (fun i => number / 16 ^ (count + 1 - 1 - i) % 16) =
          nibbles count (number / 16) := by
        apply List.map_congr_left
        intro i member
        have bound := List.mem_range.mp member
        have power : 16 ^ (count + 1 - 1 - i) = 16 * 16 ^ (count - 1 - i) := by
          rw [← Nat.pow_succ']
          congr 1
          omega
        rw [power, Nat.div_div_eq_div_mul]
      rw [nibbles, List.range_succ, List.map_append, front, List.foldl_append, ih, Nat.pow_succ',
        Nat.mod_mul]
      simp only [List.map_cons, List.map_nil, List.foldl_cons, List.foldl_nil]
      have last : count + 1 - 1 - count = 0 := by omega
      rw [last, Nat.pow_zero, Nat.div_one, Nat.add_comm]

theorem hexDigit_hexChar {nibble : Nat} (bound : nibble < 16) :
    HostConnection.hexDigit (hexChar nibble) = some nibble := by
  revert nibble
  decide

theorem mapM_hexDigit {digits : List Nat} (bound : ∀ digit ∈ digits, digit < 16) :
    (digits.map hexChar).mapM HostConnection.hexDigit = some digits := by
  induction digits with
  | nil => rfl
  | cons digit digits ih =>
      have rest := ih fun other member => bound other (List.mem_cons_of_mem digit member)
      rw [List.map_cons, List.mapM_cons, hexDigit_hexChar (bound digit List.mem_cons_self), rest]
      rfl

theorem hexChar_ne_hyphen {nibble : Nat} (bound : nibble < 16) : hexChar nibble ≠ 45 := by
  revert nibble
  decide

theorem filter_hyphenated {digits : List CodeUnit} (plain : 45 ∉ digits) :
    (hyphenated digits).filter (· ≠ 45) = digits := by
  have kept : ∀ piece : List CodeUnit, piece ⊆ digits → piece.filter (· ≠ 45) = piece := by
    intro piece inside
    apply List.filter_eq_self.mpr
    intro digit member
    simp only [ne_eq, decide_not, Bool.not_eq_true', decide_eq_false_iff_not]
    rintro rfl
    exact plain (inside member)
  have group : ∀ m, ((digits.drop m).take 4).filter (· ≠ 45) = (digits.drop m).take 4 := by
    intro m
    apply kept
    intro digit member
    exact List.mem_of_mem_drop (List.mem_of_mem_take member)
  have first := kept (digits.take 8) (List.take_subset 8 digits)
  have last := kept (digits.drop 20) (List.drop_subset 20 digits)
  have join : ∀ m, (digits.drop m).take 4 ++ digits.drop (m + 4) = digits.drop m := by
    intro m
    rw [← List.drop_drop, List.take_append_drop]
  have hyphen : ∀ rest : List CodeUnit, (45 :: rest).filter (· ≠ 45) = rest.filter (· ≠ 45) := by
    intro rest
    simp
  rw [hyphenated, List.filter_append, hyphen, List.filter_append, hyphen, List.filter_append,
    hyphen, List.filter_append, hyphen, first, group, group, group, last, join 16, join 12, join 8,
    List.take_append_drop]

/-- A guid is read back from its text. -/
theorem parseGroups_guidText (id : Guid) : HostConnection.parseGroups (guidText id) = some id := by
  have length : ((nibbles 32 id.toNat).map hexChar).length = 32 := by simp [nibbles]
  have small : ∀ digit ∈ nibbles 32 id.toNat, digit < 16 := by
    intro digit member
    obtain ⟨i, -, rfl⟩ := List.mem_map.mp member
    exact Nat.mod_lt _ (by decide)
  have plain : 45 ∉ (nibbles 32 id.toNat).map hexChar := by
    intro hyphen
    obtain ⟨digit, member, same⟩ := List.mem_map.mp hyphen
    exact hexChar_ne_hyphen (small digit member) same
  have shape : (guidText id).length = 36 ∧ ∀ i ∈ [8, 13, 18, 23], (guidText id)[i]? = some 45 := by
    rw [guidText]
    generalize (nibbles 32 id.toNat).map hexChar = digits at length
    constructor
    · simp [hyphenated, length]
    · simp [hyphenated, List.getElem?_append, length]
  rw [HostConnection.parseGroups, if_pos shape, guidText, filter_hyphenated plain,
    mapM_hexDigit small, Option.map_some, foldl_nibbles]
  congr 1
  apply BitVec.eq_of_toNat_eq
  rw [BitVec.toNat_ofNat]
  have bound := id.isLt
  omega

theorem guidText_injective : Function.Injective guidText := by
  intro first second same
  have back := parseGroups_guidText first
  rw [same, parseGroups_guidText] at back
  exact (Option.some.inj back).symm

/-! ### The statements -/

namespace SnippetDataRepository

/-- The properties of a row that is read. -/
def readColumns (id : Guid) (columns : SnippetColumns) : Except RepositoryFault StoredSnippet :=
  match columns.snippetSource, columns.usingDirectives with
  | some snippetSource, some usingDirectives => .ok {
      id
      assemblyBytes := columns.assemblyBytes
      snippetSource
      usingDirectives
      snippetHealth := columns.snippetHealth
      compilerVersion := columns.compilerVersion.getD ""
      snippetClasses := columns.snippetClasses.getD "" }
  | _, _ => .error .sqlNullValue

/-- `Get` reads the first row that the statement finds. -/
def get (sqlEquals : List CodeUnit → List CodeUnit → Bool) (table : List SnippetRow)
    (id : Guid) : Except RepositoryFault (Option StoredSnippet) :=
  match table.find? (fun row => sqlEquals row.id (guidText id)) with
  | none => .ok none
  | some row => (readColumns id row.columns).map some

/-- The values that `Save` inserts. -/
def newColumns (usings classes source : Option String) (assemblyBytes : List UInt8)
    (compilerVersion : Option String) : SnippetColumns where
  assemblyBytes
  snippetSource := source
  usingDirectives := usings
  snippetHealth := SnippetHealth.unknown.value
  compilerVersion
  snippetClasses := classes

def save (table : List SnippetRow) (id : Guid) (usings classes source : Option String)
    (assemblyBytes : List UInt8) (compilerVersion : Option String) : List SnippetRow :=
  table ++ [⟨guidText id, newColumns usings classes source assemblyBytes compilerVersion⟩]

def updateStatus (sqlEquals : List CodeUnit → List CodeUnit → Bool) (table : List SnippetRow)
    (id : Guid) (newStatus : SnippetHealth) : List SnippetRow :=
  table.map fun row =>
    if sqlEquals row.id (guidText id) then
      { row with columns := { row.columns with snippetHealth := newStatus.value } }
    else row

def all (f : Formats) (table : List SnippetRow) : Except RepositoryFault (List StoredSnippet) :=
  table.mapM fun row =>
    match f.parseGuid row.id with
    | none => .error .format
    | some id => readColumns id row.columns

def delete (sqlEquals : List CodeUnit → List CodeUnit → Bool) (table : List SnippetRow)
    (id : List CodeUnit) : List SnippetRow :=
  table.filter fun row => !sqlEquals row.id id

end SnippetDataRepository

/-! ### The snippets the table stands for -/

/-- What happens to the table. -/
inductive StoreEvent where
  | saved (id : Guid) (columns : SnippetColumns)
  | stored (id : Guid) (health : SnippetHealth)
  | deleted (id : List CodeUnit)

/-- The columns of every snippet there is. -/
abbrev Archive := Guid → Option SnippetColumns

def Archive.after (sqlEquals : List CodeUnit → List CodeUnit → Bool) (archive : Archive) :
    StoreEvent → Archive
  | .saved id columns => fun other => if other = id then some columns else archive other
  | .stored id health => fun other =>
      if other = id then
        (archive id).map fun columns => { columns with snippetHealth := health.value }
      else archive other
  | .deleted text => fun id => if sqlEquals (guidText id) text then none else archive id

/-- The archive behind what has happened, from an empty table on. -/
def archiveOf (sqlEquals : List CodeUnit → List CodeUnit → Bool) (events : List StoreEvent) :
    Archive :=
  events.foldl (Archive.after sqlEquals) fun _ => none

theorem archiveOf_concat (sqlEquals : List CodeUnit → List CodeUnit → Bool)
    (events : List StoreEvent) (event : StoreEvent) :
    archiveOf sqlEquals (events ++ [event]) =
      (archiveOf sqlEquals events).after sqlEquals event := by
  simp [archiveOf]

/-- The rows of snippets that are told apart by their ids. -/
def toRows (entries : List (Guid × SnippetColumns)) : List SnippetRow :=
  entries.map fun entry => ⟨guidText entry.1, entry.2⟩

/-- The table has one row for each snippet of the archive and no other. -/
def Represents (table : List SnippetRow) (archive : Archive) : Prop :=
  ∃ entries, table = toRows entries ∧ (entries.map Prod.fst).Nodup ∧
    ∀ id, entries.lookup id = archive id

section Refinement

variable {sqlEquals : List CodeUnit → List CodeUnit → Bool}
  (equals : ∀ first second, sqlEquals (guidText first) (guidText second) = true ↔ first = second)
  {table : List SnippetRow} {archive : Archive}

theorem represents_initial : Represents [] fun _ => none :=
  ⟨[], rfl, List.nodup_nil, fun _ => rfl⟩

include equals in
theorem find_toRows (entries : List (Guid × SnippetColumns)) (id : Guid) :
    (toRows entries).find? (fun row => sqlEquals row.id (guidText id)) =
      (entries.lookup id).map fun columns => ⟨guidText id, columns⟩ := by
  induction entries with
  | nil => rfl
  | cons entry entries ih =>
      obtain ⟨other, columns⟩ := entry
      rw [toRows, List.map_cons, List.lookup_cons]
      rw [toRows] at ih
      by_cases same : other = id
      · rw [List.find?_cons_of_pos (by simpa using (equals other id).mpr same), same]
        simp
      · have differs : (id == other) = false := beq_eq_false_iff_ne.mpr (Ne.symm same)
        rw [List.find?_cons_of_neg (by simpa using mt (equals other id).mp same), ih, differs]

include equals in
/-- `Get` answers from the archive. -/
theorem Represents.get (h : Represents table archive) (id : Guid) :
    SnippetDataRepository.get sqlEquals table id =
      match archive id with
      | none => .ok none
      | some columns => (SnippetDataRepository.readColumns id columns).map some := by
  obtain ⟨entries, rfl, -, found⟩ := h
  rw [SnippetDataRepository.get, find_toRows equals, found]
  cases archive id <;> rfl

theorem Represents.save (h : Represents table archive) {id : Guid} (fresh : archive id = none)
    (usings classes source : Option String) (assemblyBytes : List UInt8)
    (compilerVersion : Option String) :
    Represents (SnippetDataRepository.save table id usings classes source assemblyBytes
        compilerVersion)
      (archive.after sqlEquals (.saved id (SnippetDataRepository.newColumns usings classes source
        assemblyBytes compilerVersion))) := by
  obtain ⟨entries, rfl, distinct, found⟩ := h
  have absent : id ∉ entries.map Prod.fst := by
    intro listed
    obtain ⟨entry, member, rfl⟩ := List.mem_map.mp listed
    rw [← found, (KeyedRows.mem_iff_lookup distinct).mp member] at fresh
    cases fresh
  refine ⟨entries ++ [(id, SnippetDataRepository.newColumns usings classes source assemblyBytes
    compilerVersion)], ?_, KeyedRows.nodup_concat distinct absent _, ?_⟩
  · simp only [SnippetDataRepository.save, toRows, List.map_append, List.map_cons, List.map_nil]
  · intro other
    rw [KeyedRows.lookup_concat absent, found]
    rfl

include equals in
theorem Represents.updateStatus (h : Represents table archive) (id : Guid)
    (newStatus : SnippetHealth) :
    Represents (SnippetDataRepository.updateStatus sqlEquals table id newStatus)
      (archive.after sqlEquals (.stored id newStatus)) := by
  obtain ⟨entries, rfl, distinct, found⟩ := h
  refine ⟨KeyedRows.change entries id
    fun columns => { columns with snippetHealth := newStatus.value }, ?_, ?_, ?_⟩
  · simp only [SnippetDataRepository.updateStatus, toRows, KeyedRows.change, List.map_map]
    apply List.map_congr_left
    rintro ⟨other, columns⟩ member
    simp only [Function.comp_apply]
    by_cases same : other = id
    · rw [if_pos ((equals other id).mpr same), if_pos same]
    · rw [if_neg (mt (equals other id).mp same), if_neg same]
  · rw [KeyedRows.keys_change]
    exact distinct
  · intro other
    rw [KeyedRows.lookup_change, found, found]
    rfl

theorem Represents.delete (h : Represents table archive) (id : List CodeUnit) :
    Represents (SnippetDataRepository.delete sqlEquals table id)
      (archive.after sqlEquals (.deleted id)) := by
  obtain ⟨entries, rfl, distinct, found⟩ := h
  refine ⟨KeyedRows.remove entries fun other => sqlEquals (guidText other) id, ?_,
    KeyedRows.nodup_remove distinct _, ?_⟩
  · simp only [SnippetDataRepository.delete, toRows, KeyedRows.remove, List.filter_map]
    rfl
  · intro other
    rw [KeyedRows.lookup_remove, found]
    rfl

theorem readColumns_id {id : Guid} {columns : SnippetColumns} {snippet : StoredSnippet}
    (read : SnippetDataRepository.readColumns id columns = .ok snippet) : snippet.id = id := by
  unfold SnippetDataRepository.readColumns at read
  split at read
  · cases read
    rfl
  · cases read

theorem readColumns_error_iff (id : Guid) (columns : SnippetColumns) :
    (∃ fault, SnippetDataRepository.readColumns id columns = .error fault) ↔
      columns.snippetSource = none ∨ columns.usingDirectives = none := by
  unfold SnippetDataRepository.readColumns
  cases columns.snippetSource <;> cases columns.usingDirectives <;> simp

theorem all_toRows {f : Formats} (parses : ∀ id, f.parseGuid (guidText id) = some id)
    (entries : List (Guid × SnippetColumns)) :
    SnippetDataRepository.all f (toRows entries) =
      entries.mapM fun entry => SnippetDataRepository.readColumns entry.1 entry.2 := by
  induction entries with
  | nil => rfl
  | cons entry entries ih =>
      rw [SnippetDataRepository.all, toRows] at ih ⊢
      rw [List.map_cons, List.mapM_cons, List.mapM_cons, ih]
      simp only [parses]

/-- Reading every entry succeeds or meets one that cannot be read. -/
theorem mapM_readColumns (entries : List (Guid × SnippetColumns)) :
    (∃ snippets, entries.mapM (fun entry =>
        SnippetDataRepository.readColumns entry.1 entry.2) = .ok snippets ∧
      snippets.map StoredSnippet.id = entries.map Prod.fst ∧
      (∀ snippet, snippet ∈ snippets ↔ ∃ entry ∈ entries,
        SnippetDataRepository.readColumns entry.1 entry.2 = .ok snippet) ∧
      ∀ entry ∈ entries, entry.2.snippetSource ≠ none ∧ entry.2.usingDirectives ≠ none) ∨
    (∃ fault, entries.mapM (fun entry =>
        SnippetDataRepository.readColumns entry.1 entry.2) = .error fault) ∧
      ∃ entry ∈ entries, entry.2.snippetSource = none ∨ entry.2.usingDirectives = none := by
  induction entries with
  | nil => exact .inl ⟨[], rfl, rfl, by simp, by simp⟩
  | cons entry entries ih =>
      rw [List.mapM_cons]
      cases read : SnippetDataRepository.readColumns entry.1 entry.2 with
      | error fault =>
          right
          exact ⟨⟨fault, rfl⟩, entry, List.mem_cons_self,
            (readColumns_error_iff entry.1 entry.2).mp ⟨fault, read⟩⟩
      | ok snippet =>
          have whole := mt (readColumns_error_iff entry.1 entry.2).mpr (by simp [read])
          rcases ih with ⟨snippets, rest, ids, members, readable⟩ | ⟨⟨fault, rest⟩, bad⟩
          · left
            refine ⟨snippet :: snippets, ?_, ?_, ?_, ?_⟩
            · rw [rest]
              rfl
            · rw [List.map_cons, List.map_cons, ids, readColumns_id read]
            · intro other
              rw [List.mem_cons, members]
              simp [read, eq_comm]
            · intro other member
              rcases List.mem_cons.mp member with rfl | member
              · exact not_or.mp whole
              · exact readable other member
          · right
            obtain ⟨other, member, null⟩ := bad
            refine ⟨⟨fault, ?_⟩, other, List.mem_cons_of_mem entry member, null⟩
            rw [rest]
            rfl

/-- `All` returns every snippet of the archive once, unless one of them cannot be read. -/
theorem Represents.all {f : Formats} (parses : ∀ id, f.parseGuid (guidText id) = some id)
    (h : Represents table archive) :
    (∀ snippets, SnippetDataRepository.all f table = .ok snippets →
      (snippets.map StoredSnippet.id).Nodup ∧ ∀ snippet, snippet ∈ snippets ↔
        ∃ columns, archive snippet.id = some columns ∧
          SnippetDataRepository.readColumns snippet.id columns = .ok snippet) ∧
    ((∃ fault, SnippetDataRepository.all f table = .error fault) ↔
      ∃ id columns, archive id = some columns ∧
        (columns.snippetSource = none ∨ columns.usingDirectives = none)) := by
  obtain ⟨entries, rfl, distinct, found⟩ := h
  have archived : ∀ id columns, archive id = some columns ↔ (id, columns) ∈ entries := by
    intro id columns
    rw [KeyedRows.mem_iff_lookup distinct, found]
  simp only [archived]
  rw [all_toRows parses]
  rcases mapM_readColumns entries with ⟨snippets, read, ids, members, whole⟩ |
    ⟨⟨fault, failed⟩, entry, member, null⟩
  · constructor
    · intro others same
      cases read.symm.trans same
      refine ⟨ids ▸ distinct, ?_⟩
      intro snippet
      rw [members]
      constructor
      · rintro ⟨entry, member, read⟩
        have same := readColumns_id read
        exact ⟨entry.2, same ▸ member, same ▸ read⟩
      · rintro ⟨columns, member, read⟩
        exact ⟨(snippet.id, columns), member, read⟩
    · constructor
      · rintro ⟨fault, failed⟩
        cases read.symm.trans failed
      · rintro ⟨id, columns, member, null⟩
        exact absurd null (not_or.mpr (whole (id, columns) member))
  · constructor
    · intro others same
      cases failed.symm.trans same
    · exact ⟨fun _ => ⟨entry.1, entry.2, member, null⟩, fun _ => ⟨fault, failed⟩⟩

end Refinement

end HostedPumpkin
