import Mathlib.Data.List.TakeWhile
import HostedPumpkin.Host.Logger

/-!
The labelled arguments of the command line library: an argument with a value
(`ValueArg`) and a switch (`SwitchArg`), each offered one token of the command
line and the token after it.

The arguments have no constraint, are `_ignoreable` and are in no exclusive list,
as all that this program declares.
-/

namespace HostedPumpkin

/-- A narrow string. -/
abbrev Text := List Char

namespace TCLAP

/-- `Arg::delimiter`, as `CmdLine` is constructed with it. -/
def delimiter : Char := ' '

/-- `Arg::blankChar`. -/
def blankChar : Char := '\x07'

/-- `Arg::flagStartChar`. -/
def flagStartChar : Char := '-'

def flagStartString : Text := ['-']

def nameStartString : Text := ['-', '-']

/-- `IgnoreRestVisitor`, `HelpVisitor` and `VersionVisitor`. -/
inductive Visitor where
  | ignoreRest
  | help
  | version
deriving DecidableEq, Repr

/-- `_value`, by the type of the argument: `ValueArg<string>`, `ValueArg<int>`, `SwitchArg`. -/
inductive ArgValue where
  | string (value : Text)
  | int (value : Int)
  | switch (value : Bool)
deriving DecidableEq, Repr

structure Arg where
  flag : Text
  name : Text
  required : Bool
  /-- `_typeDesc`; a switch has none. -/
  typeDesc : Text
  value : ArgValue
  alreadySet : Bool
  visitor : Option Visitor
deriving DecidableEq, Repr

/-- What leaves the parser other than by returning: an `ArgException` with its text and
the argument it names, or an `ExitException`. -/
inductive Thrown where
  | argException (error argId : Text)
  | exitException (estat : Nat)
deriving DecidableEq, Repr

def Arg.argMatches (arg : Arg) (argFlag : Text) : Bool :=
  (argFlag == flagStartString ++ arg.flag && arg.flag != []) ||
    argFlag == nameStartString ++ arg.name

def Arg.toString (arg : Arg) : Text :=
  (if arg.flag ≠ [] then flagStartString ++ arg.flag ++ [' '] else []) ++
    ['('] ++ nameStartString ++ arg.name ++ [')']

/-- `_valueRequired`, which `ValueArg` and `SwitchArg` construct their base with. -/
def Arg.valueRequired (arg : Arg) : Bool :=
  match arg.value with
  | .switch _ => false
  | _ => true

def Arg.longID (arg : Arg) : Text :=
  let value := if arg.valueRequired then [delimiter, '<'] ++ arg.typeDesc ++ ['>'] else []
  (if arg.flag ≠ [] then flagStartString ++ arg.flag ++ value ++ ",  ".toList else []) ++
    nameStartString ++ arg.name ++ value

/-- `operator==`. -/
def Arg.sameAs (arg a : Arg) : Bool :=
  (arg.flag != [] && arg.flag == a.flag) || arg.name == a.name

/-- The flag and the value a token is cut into at its first delimiter, if that is
behind its second character. -/
def trimFlag (flag : Text) : Text × Text :=
  match flag.findIdx? (· == delimiter) with
  | some stop => if 1 < stop then (flag.take stop, flag.drop (stop + 1)) else (flag, [])
  | none => (flag, [])

theorem trimFlag_of_not_mem {token : Text} (plain : delimiter ∉ token) :
    trimFlag token = (token, []) := by
  have none : token.findIdx? (· == delimiter) = none := by
    rw [List.findIdx?_eq_none_iff]
    intro c member
    simp only [beq_eq_false_iff_ne]
    rintro rfl
    exact plain member
  rw [trimFlag, none]

theorem trimFlag_append {head value : Text} (plain : delimiter ∉ head)
    (long : 1 < head.length) : trimFlag (head ++ delimiter :: value) = (head, value) := by
  have found : (head ++ delimiter :: value).findIdx? (· == delimiter) = some head.length := by
    rw [List.findIdx?_eq_some_iff_getElem]
    refine ⟨by simp, by simp, ?_⟩
    intro j before
    rw [List.getElem_append_left before]
    simp only [beq_iff_eq]
    intro same
    exact plain (same ▸ List.getElem_mem before)
  rw [trimFlag, found]
  simp [long]

/-- A cut token is the flag, the delimiter and the value again. -/
theorem trimFlag_cases (token : Text) :
    trimFlag token = (token, []) ∨
      token = (trimFlag token).1 ++ delimiter :: (trimFlag token).2 := by
  unfold trimFlag
  split
  next stop found =>
    obtain ⟨inside, here, -⟩ := List.findIdx?_eq_some_iff_getElem.mp found
    split
    · right
      have character : token[stop] = delimiter := by simpa using here
      calc token = token.take stop ++ token.drop stop := (List.take_append_drop ..).symm
        _ = _ := by rw [List.drop_eq_getElem_cons inside, character]
    · left; rfl
  next => left; rfl

def hasBlanks (s : Text) : Bool :=
  (s.drop 1).any (· == blankChar)

/-! ### Values -/

def isSpace (c : Char) : Bool :=
  c == ' ' || ('\t' ≤ c && c ≤ '\r')

/-- `INT_MIN`. -/
def intMin : Int := -2147483648

/-- A sign in front of a number, and what follows it. -/
def readSign : Text → Text × Text
  | '+' :: field => (['+'], field)
  | '-' :: field => (['-'], field)
  | field => ([], field)

/-- The value `operator>>` reads into an `int` and what it leaves in the stream;
`none` sets `failbit`. -/
def readInt (stream : Text) : Option (Int × Text) :=
  let (sign, field) := readSign (stream.dropWhile isSpace)
  let digits := field.takeWhile Char.isDigit
  let value : Int := (if sign = ['-'] then -1 else 1) * (Nat.ofDigitChars 10 digits 0 : Int)
  if digits ≠ [] ∧ intMin ≤ value ∧ value ≤ intMax then
    some (value, field.dropWhile Char.isDigit)
  else none

/-- The reading loop of `ExtractValue`: the last value and how many were read. A value
takes a character at least, so the length of the stream bounds the rounds. -/
def readValues : Nat → Int → Nat → Text → Option (Int × Nat)
  | _, destVal, valuesRead, [] => some (destVal, valuesRead)
  | 0, destVal, valuesRead, _ => some (destVal, valuesRead)
  | rounds + 1, _, valuesRead, stream =>
    match readInt stream with
    | none => none
    | some (value, rest) => readValues rounds value (valuesRead + 1) rest

/-- `ExtractValue` of a value-like type, here an `int`; an error is its text. -/
def extractInt (destVal : Int) (strVal : Text) : Except Text Int :=
  match readValues strVal.length destVal 0 strVal with
  | none => .error ("Couldn't read argument value from string '".toList ++ strVal ++ ['\''])
  | some (value, valuesRead) =>
    if 1 < valuesRead then
      .error ("More than one valid value parsed from string '".toList ++ strVal ++ ['\''])
    else .ok value

/-- A decimal number of the range of an `int`, behind white space. -/
def IntegerText (s : Text) (value : Int) : Prop :=
  ∃ spaces sign digits : Text, s = spaces ++ (sign ++ digits) ∧
    (∀ c ∈ spaces, isSpace c = true) ∧ (sign = [] ∨ sign = ['+'] ∨ sign = ['-']) ∧
    digits ≠ [] ∧ (∀ c ∈ digits, c.isDigit = true) ∧
    value = (if sign = ['-'] then -1 else 1) * (Nat.ofDigitChars 10 digits 0 : Int) ∧
    intMin ≤ value ∧ value ≤ intMax

theorem isSpace_eq_false_of_isDigit {c : Char} (digit : c.isDigit = true) :
    isSpace c = false := by
  simp only [Char.isDigit, Bool.and_eq_true, decide_eq_true_eq, ge_iff_le] at digit
  have above : 48 ≤ c.val.toNat := UInt32.le_iff_toNat_le.mp digit.1
  have notSpace : c ≠ ' ' := by
    rintro rfl
    simp at above
  have notLow : ¬ c ≤ '\r' := by
    intro low
    have below : c.val.toNat ≤ 13 := UInt32.le_iff_toNat_le.mp low
    omega
  simp [isSpace, notSpace, notLow]

theorem readSign_spec (field : Text) :
    (readSign field).1 ++ (readSign field).2 = field ∧
      ((readSign field).1 = [] ∨ (readSign field).1 = ['+'] ∨ (readSign field).1 = ['-']) := by
  unfold readSign
  split <;> simp

theorem readSign_append {sign digits : Text} {c : Char}
    (signed : sign = [] ∨ sign = ['+'] ∨ sign = ['-']) (first : digits.head? = some c)
    (digit : c.isDigit = true) : readSign (sign ++ digits) = (sign, digits) := by
  rcases signed with rfl | rfl | rfl
  · obtain ⟨cs, rfl⟩ := List.head?_eq_some_iff.mp first
    have minus : c ≠ '-' := by rintro rfl; simp at digit
    have plus : c ≠ '+' := by rintro rfl; simp at digit
    simp [readSign, minus, plus]
  · rfl
  · rfl

/-- A number is read up to the first character behind its digits. -/
theorem readInt_eq_some_iff {s rest : Text} {value : Int} :
    readInt s = some (value, rest) ↔ ∃ numeral, s = numeral ++ rest ∧
      IntegerText numeral value ∧ ∀ c ∈ rest.head?, c.isDigit = false := by
  constructor
  · intro read
    obtain ⟨cut, signed⟩ := readSign_spec (s.dropWhile isSpace)
    simp only [readInt] at read
    generalize valued : (if (readSign (s.dropWhile isSpace)).1 = ['-'] then (-1 : Int) else 1) *
      (Nat.ofDigitChars 10 ((readSign (s.dropWhile isSpace)).2.takeWhile Char.isDigit) 0 : Int) =
        number at read
    split at read
    case isFalse => cases read
    case isTrue range =>
      obtain ⟨some_digit, low, high⟩ := range
      cases read
      refine ⟨s.takeWhile isSpace ++ ((readSign (s.dropWhile isSpace)).1 ++
        (readSign (s.dropWhile isSpace)).2.takeWhile Char.isDigit), ?_,
        ⟨_, _, _, rfl, fun c => List.mem_takeWhile_imp, signed, some_digit,
          fun c => List.mem_takeWhile_imp, valued.symm, low, high⟩, ?_⟩
      · rw [List.append_assoc, List.append_assoc, List.takeWhile_append_dropWhile, cut,
          List.takeWhile_append_dropWhile]
      · intro c head
        have stops := List.head?_dropWhile_not Char.isDigit (readSign (s.dropWhile isSpace)).2
        rw [Option.mem_def.mp head] at stops
        simpa using stops
  · rintro ⟨numeral, rfl, ⟨spaces, sign, digits, rfl, white, signed, some_digit, decimal,
      same, low, high⟩, stops⟩
    obtain ⟨c, cs, split⟩ := List.exists_cons_of_ne_nil some_digit
    have digit : c.isDigit = true := decimal c (by simp [split])
    have field : (spaces ++ (sign ++ digits) ++ rest).dropWhile isSpace =
        sign ++ (digits ++ rest) := by
      rw [List.append_assoc, List.dropWhile_append_of_pos white, List.append_assoc]
      rcases signed with rfl | rfl | rfl
      · simp [split, isSpace_eq_false_of_isDigit digit]
      · simp [isSpace]
      · simp [isSpace]
    have taken : (digits ++ rest).takeWhile Char.isDigit = digits := by
      rw [List.takeWhile_append_of_pos decimal]
      cases rest with
      | nil => simp
      | cons d ds => simp [stops d rfl]
    have dropped : (digits ++ rest).dropWhile Char.isDigit = rest := by
      rw [List.dropWhile_append_of_pos decimal]
      cases rest with
      | nil => simp
      | cons d ds => simp [stops d rfl]
    simp only [readInt, field,
      readSign_append signed (show (digits ++ rest).head? = some c by simp [split]) digit,
      taken, dropped, ← same]
    rw [if_pos ⟨some_digit, low, high⟩]

theorem readInt_shorter {s rest : Text} {value : Int} (read : readInt s = some (value, rest)) :
    rest.length < s.length := by
  obtain ⟨numeral, rfl, ⟨spaces, sign, digits, rfl, -, -, some_digit, -⟩, -⟩ :=
    readInt_eq_some_iff.mp read
  have := List.length_pos_of_ne_nil some_digit
  simp only [List.length_append]
  omega

theorem readValues_count {rounds valuesRead count : Nat} {destVal value : Int} {s : Text}
    (read : readValues rounds destVal valuesRead s = some (value, count)) :
    valuesRead ≤ count := by
  induction rounds generalizing destVal valuesRead s with
  | zero => cases s <;> cases read <;> exact Nat.le_refl _
  | succ rounds ih =>
    cases s with
    | nil => cases read; exact Nat.le_refl _
    | cons c cs =>
      simp only [readValues] at read
      split at read
      · cases read
      · have := ih read
        omega

/-- An `int` is read from an empty text, which leaves the default, or from a number with
nothing behind it. -/
theorem extractInt_eq_ok_iff {destVal value : Int} {s : Text} :
    extractInt destVal s = .ok value ↔ s = [] ∧ value = destVal ∨ IntegerText s value := by
  have whole : IntegerText s value ↔ readInt s = some (value, []) := by
    simp [readInt_eq_some_iff]
  cases s with
  | nil =>
    have blank : ¬ IntegerText [] value := by
      rintro ⟨spaces, sign, digits, empty, -, -, some_digit, -⟩
      simp_all
    simp [extractInt, readValues, blank, eq_comm]
  | cons c cs =>
    rw [whole]
    cases read : readInt (c :: cs) with
    | none => simp [extractInt, readValues, read]
    | some result =>
      obtain ⟨number, rest⟩ := result
      cases rest with
      | nil => simp [extractInt, readValues, read]
      | cons d ds =>
        -- a second value is read, or the stream fails
        have shorter := readInt_shorter read
        simp only [List.length_cons] at shorter
        obtain ⟨rounds, enough⟩ : ∃ rounds, cs.length = rounds + 1 := ⟨cs.length - 1, by omega⟩
        have more : ∀ last count,
            readValues cs.length number 1 (d :: ds) = some (last, count) → 1 < count := by
          intro last count again
          rw [enough] at again
          simp only [readValues] at again
          split at again
          · cases again
          · exact readValues_count again
        simp only [extractInt, List.length_cons, readValues, read]
        split
        · simp
        next last count again => simp [more last count again]

/-- `_extractValue`. -/
def Arg.extractValue (arg : Arg) (val : Text) : Except Thrown Arg :=
  match arg.value with
  | .string _ => .ok { arg with value := .string val }
  | .int destVal =>
    match extractInt destVal val with
    | .ok value => .ok { arg with value := .int value }
    | .error error => .error (.argException error arg.toString)
  | .switch _ => .ok arg

/-! ### Processing a token -/

/-- What `processArg` leaves: its result, the token (a combined switch is blanked in
it), whether the next token was taken as a value, the argument and `Arg::ignoreRest`. -/
structure Processed where
  matched : Bool
  token : Text
  tookNext : Bool
  arg : Arg
  ignoring : Bool
deriving DecidableEq, Repr

/-- `_checkWithVisitor`: whether the rest is ignored from now on. Help and version are
printed and leave by `ExitException`. -/
def Arg.checkWithVisitor (arg : Arg) (ignoring : Bool) : Except Thrown Bool :=
  match arg.visitor with
  | none => .ok ignoring
  | some .ignoreRest => .ok true
  | some .help => .error (.exitException 0)
  | some .version => .error (.exitException 0)

def alreadySetError : Text := "Argument already set!".toList

/-- `ValueArg<T>::processArg`. -/
def Arg.processValueArg (arg : Arg) (ignoring : Bool) (token : Text) (next : Option Text) :
    Except Thrown Processed :=
  if ignoring || hasBlanks token then .ok ⟨false, token, false, arg, ignoring⟩
  else
    let (flag, value) := trimFlag token
    if arg.argMatches flag then
      if arg.alreadySet then .error (.argException alreadySetError arg.toString)
      else do
        let val ← if value = [] then
            match next with
            | some val => .ok val
            | none => .error (.argException "Missing a value for this argument!".toList
                arg.toString)
          else .ok value
        let extracted ← arg.extractValue val
        let ignoring ← extracted.checkWithVisitor ignoring
        .ok ⟨true, token, value == [], { extracted with alreadySet := true }, ignoring⟩
    else .ok ⟨false, token, false, arg, ignoring⟩

/-- `lastCombined`. -/
def lastCombined (combinedSwitches : Text) : Bool :=
  (combinedSwitches.drop 1).all (· == blankChar)

/-- `combinedSwitchesMatch`: the token with the switch blanked, if it is in it. -/
def Arg.combinedSwitchesMatch (arg : Arg) (combinedSwitches : Text) : Option Text :=
  if combinedSwitches ≠ [] ∧ combinedSwitches.head? ≠ some flagStartChar then none
  else if combinedSwitches.take 2 = nameStartString then none
  else if delimiter ∈ combinedSwitches then none
  else
    match arg.flag with
    | [] => none
    | flag :: _ =>
      if flag = flagStartChar then none
      else if flag ∈ combinedSwitches.drop 1 then
        some (combinedSwitches.take 1 ++
          (combinedSwitches.drop 1).set ((combinedSwitches.drop 1).idxOf flag) blankChar)
      else none

/-- `commonProcessing`. -/
def Arg.commonProcessing (arg : Arg) (ignoring : Bool) : Except Thrown (Arg × Bool) :=
  if arg.alreadySet then .error (.argException alreadySetError arg.toString)
  else do
    let value := match arg.value with
      | .switch value => .switch !value
      | value => value
    let ignoring ← arg.checkWithVisitor ignoring
    .ok ({ arg with alreadySet := true, value := value }, ignoring)

/-- `SwitchArg::processArg`. -/
def Arg.processSwitchArg (arg : Arg) (ignoring : Bool) (token : Text) :
    Except Thrown Processed :=
  if ignoring then .ok ⟨false, token, false, arg, ignoring⟩
  else if arg.argMatches token then do
    let (arg, ignoring) ← arg.commonProcessing ignoring
    .ok ⟨true, token, false, arg, ignoring⟩
  else
    match arg.combinedSwitchesMatch token with
    | none => .ok ⟨false, token, false, arg, ignoring⟩
    | some blanked =>
      if (arg.combinedSwitchesMatch blanked).isSome then
        .error (.argException alreadySetError arg.toString)
      else do
        let (arg, ignoring) ← arg.commonProcessing ignoring
        .ok ⟨lastCombined blanked, blanked, false, arg, ignoring⟩

/-- `processArg`, by the type of the argument. -/
def Arg.processArg (arg : Arg) (ignoring : Bool) (token : Text) (next : Option Text) :
    Except Thrown Processed :=
  match arg.value with
  | .switch _ => arg.processSwitchArg ignoring token
  | _ => arg.processValueArg ignoring token next

/-! ### Who takes a token -/

/-- Nothing happens: the argument passes the token on. -/
def Arg.Declines (arg : Arg) (ignoring : Bool) (token : Text) (next : Option Text) : Prop :=
  arg.processArg ignoring token next = .ok ⟨false, token, false, arg, ignoring⟩

theorem Arg.declines_of_ignoring (arg : Arg) (token : Text) (next : Option Text) :
    arg.Declines true token next := by
  unfold Declines processArg
  split
  · rfl
  · rfl

/-- A value argument takes only a token that is its flag or name up to the delimiter. -/
theorem Arg.valueArg_declines {arg : Arg} {token : Text} (next : Option Text)
    (valued : arg.valueRequired = true)
    (other : hasBlanks token = true ∨ arg.argMatches (trimFlag token).1 = false) :
    arg.Declines false token next := by
  have kind : arg.processArg false token next = arg.processValueArg false token next := by
    unfold processArg
    unfold valueRequired at valued
    split
    next switch => simp [switch] at valued
    next => rfl
  rw [Declines, kind, processValueArg]
  rcases other with blanks | other
  · simp [blanks]
  · simp only [other]
    split
    · rfl
    · rfl

theorem Arg.switchArg_declines {arg : Arg} {token : Text} (next : Option Text)
    (switch : arg.valueRequired = false) (other : arg.argMatches token = false)
    (apart : arg.combinedSwitchesMatch token = none) : arg.Declines false token next := by
  have kind : arg.processArg false token next = arg.processSwitchArg false token := by
    unfold processArg
    unfold valueRequired at switch
    split
    · rfl
    next => simp at switch
  rw [Declines, kind, processSwitchArg]
  simp [other, apart]

end TCLAP

end HostedPumpkin
