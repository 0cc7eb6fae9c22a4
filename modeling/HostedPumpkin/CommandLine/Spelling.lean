import HostedPumpkin.CommandLine.HostArguments

/-!
The command lines the host accepts, as a grammar over its tokens, and the outcome of
every command line: the host starts with what the settings mean, help or version is
printed, or the process ends with 1.
-/

namespace HostedPumpkin

open TCLAP

abbrev Setting := HostOption × Text

/-- The two ways to name an argument. -/
def HostOption.heads (o : HostOption) : List Text :=
  [[flagStartChar, o.flag], nameStartString ++ o.name]

def Blank (token : Text) : Prop :=
  token = [] ∨ ∃ n, token = flagStartChar :: List.replicate n blankChar

def StartsIgnoring (token : Text) : Prop :=
  token = nameStartString ∨ token = "--ignore_rest".toList

/-- Help or version, or a combined switch with one `h` in it. -/
def AsksForExit (token : Text) : Prop :=
  token = "--help".toList ∨ token = "--version".toList ∨
    ∃ switches, token = flagStartChar :: switches ∧ switches.head? ≠ some flagStartChar ∧
      delimiter ∉ switches ∧ switches.count 'h' = 1

/-- What may stand as the value of an argument. -/
def Extractable (setting : Setting) : Prop :=
  setting.1 = .serverPort → setting.2 = [] ∨ ∃ n, IntegerText setting.2 n

/-- A value is its own token, or is joined to its argument by the delimiter, when it is
not empty and has no blank character in it. -/
inductive Spelled : List Text → List Setting → Prop
  | nil : Spelled [] []
  | blank {token : Text} {args : List Text} {settings : List Setting} (empty : Blank token)
      (rest : Spelled args settings) : Spelled (token :: args) settings
  | apart {o : HostOption} {head token value : Text} {args : List Text}
      {settings : List Setting} (named : head ∈ o.heads)
      (written : token = head ∨ token = head ++ [delimiter]) (rest : Spelled args settings) :
      Spelled (token :: value :: args) ((o, value) :: settings)
  | joined {o : HostOption} {head value : Text} {args : List Text} {settings : List Setting}
      (named : head ∈ o.heads) (some_value : value ≠ []) (unblank : blankChar ∉ value)
      (rest : Spelled args settings) :
      Spelled ((head ++ delimiter :: value) :: args) ((o, value) :: settings)

/-- No argument twice, and a number for the port. -/
def Accepted (settings : List Setting) : Prop :=
  (settings.map Prod.fst).Nodup ∧ ∀ setting ∈ settings, Extractable setting

/-- What the host starts with. -/
structure Means (settings : List Setting) (a : HostArguments) : Prop where
  clrVersion : settings.lookup .clrVersion = some a.clrVersion
  snippetDataBase : settings.lookup .snippetDataBase = some a.snippetDataBase
  assemblyFileName : (settings.lookup .assemblyFileName).getD [] = a.assemblyFileName
  typeName : (settings.lookup .typeName).getD [] = a.typeName
  methodName : (settings.lookup .methodName).getD [] = a.methodName
  serverPort : match settings.lookup .serverPort with
    | none => a.serverPort = defaultPort
    | some text => text = [] ∧ a.serverPort = defaultPort ∨ IntegerText text a.serverPort
  testMode : a.testMode = false

/-! ### The arguments behind the settings read so far -/

/-- The value of an argument behind the settings. -/
def valueFor (settings : List Setting) (o : HostOption) : ArgValue :=
  if o = .serverPort then
    .int (match settings.lookup o with
      | none => defaultPort
      | some text => match extractInt defaultPort text with
        | .ok value => value
        | .error _ => defaultPort)
  else .string ((settings.lookup o).getD o.default)

def argFor (settings : List Setting) (o : HostOption) : Arg :=
  ⟨[o.flag], o.name, o == .clrVersion, o.typeDesc, valueFor settings o,
    (settings.lookup o).isSome, none⟩

/-- `_argList` behind the settings. -/
def argsFor (settings : List Setting) : List Arg :=
  HostOption.all.map (argFor settings) ++ [ignoreArg, versionArg, helpArg]

def stateFor (settings : List Setting) : Parsing :=
  ⟨argsFor settings, false, settings.countP fun setting => setting.1 == .clrVersion⟩

theorem simpleCLRHost_eq : simpleCLRHost = .ok ⟨argsFor [], 1⟩ := by
  decide

theorem argMatches_argFor (settings : List Setting) (o : HostOption) (head : Text) :
    (argFor settings o).argMatches head = true ↔ head ∈ o.heads := by
  simp [Arg.argMatches, argFor, HostOption.heads, flagStartString, flagStartChar]

theorem heads_plain {o : HostOption} {head : Text} (named : head ∈ o.heads) :
    delimiter ∉ head ∧ blankChar ∉ head ∧ 1 < head.length := by
  revert head
  cases o <;> decide

/-- A name belongs to one argument. -/
theorem heads_disjoint {o other : HostOption} {head : Text} (named : head ∈ o.heads)
    (again : head ∈ other.heads) : o = other := by
  have apart : ∀ o ∈ HostOption.all, ∀ other ∈ HostOption.all, ∀ head ∈ o.heads,
      head ∈ other.heads → o = other := by
    decide
  exact apart o o.mem_all other other.mem_all head named again

theorem argFor_valueRequired (settings : List Setting) (o : HostOption) :
    (argFor settings o).valueRequired = true := by
  cases o <;> rfl

theorem lookup_concat (settings : List Setting) (o other : HostOption) (value : Text) :
    (settings ++ [(o, value)]).lookup other =
      (settings.lookup other).or (if other = o then some value else none) := by
  by_cases same : other = o
  · simp [List.lookup_append, same]
  · have differs : (other == o) = false := by simpa using same
    simp [List.lookup_append, List.lookup_cons, same, differs]

theorem argFor_concat_of_ne {settings : List Setting} {o other : HostOption} (value : Text)
    (apart : other ≠ o) : argFor (settings ++ [(o, value)]) other = argFor settings other := by
  have same : (settings ++ [(o, value)]).lookup other = settings.lookup other := by
    simp [lookup_concat, apart]
  simp only [argFor, valueFor, same]

theorem extractable_iff (text : Text) :
    Extractable (.serverPort, text) ↔ ∃ n, extractInt defaultPort text = .ok n := by
  simp only [extractInt_eq_ok_iff, Extractable, forall_const]
  constructor
  · rintro (empty | ⟨n, number⟩)
    · exact ⟨defaultPort, .inl ⟨empty, rfl⟩⟩
    · exact ⟨n, .inr number⟩
  · rintro ⟨n, ⟨empty, -⟩ | number⟩
    · exact .inl empty
    · exact .inr ⟨n, number⟩

/-- The argument with a value it can read. -/
theorem argFor_extractValue {settings : List Setting} {o : HostOption} {value : Text}
    (unset : settings.lookup o = none) (readable : Extractable (o, value)) :
    ∃ extracted, (argFor settings o).extractValue value = .ok extracted ∧
      extracted.visitor = none ∧
      { extracted with alreadySet := true } = argFor (settings ++ [(o, value)]) o := by
  have now : (settings ++ [(o, value)]).lookup o = some value := by
    simp [lookup_concat, unset]
  by_cases port : o = .serverPort
  · subst port
    obtain ⟨n, extracts⟩ := (extractable_iff value).mp readable
    refine ⟨{ argFor settings .serverPort with value := .int n }, ?_, rfl, ?_⟩
    · simp [Arg.extractValue, argFor, valueFor, unset, extracts]
    · simp [argFor, valueFor, now, extracts]
  · refine ⟨{ argFor settings o with value := .string value }, ?_, rfl, ?_⟩
    · simp [Arg.extractValue, argFor, valueFor, port]
    · simp [argFor, valueFor, port, now]

theorem argFor_extractValue_error {settings : List Setting} {o : HostOption} {value : Text}
    (unset : settings.lookup o = none) (unreadable : ¬ Extractable (o, value)) :
    ∃ error argId, (argFor settings o).extractValue value = .error (.argException error argId) := by
  have port : o = .serverPort := by
    by_contra other
    exact unreadable fun port => absurd port other
  subst port
  cases extracts : extractInt defaultPort value with
  | ok n => exact absurd ((extractable_iff value).mpr ⟨n, extracts⟩) unreadable
  | error error =>
    exact ⟨error, (argFor settings .serverPort).toString,
      by simp [Arg.extractValue, argFor, valueFor, unset, extracts]⟩

/-- What the argument does with a token that names it, by the value it gets. -/
theorem processArg_named {settings : List Setting} {o : HostOption} {token head value : Text}
    (named : head ∈ o.heads) (cut : trimFlag token = (head, value))
    (unblank : hasBlanks token = false) (next : Option Text) :
    (argFor settings o).processArg false token next =
      if (settings.lookup o).isSome then
        .error (.argException alreadySetError (argFor settings o).toString)
      else
        match if value = [] then next else some value with
        | none => .error (.argException "Missing a value for this argument!".toList
            (argFor settings o).toString)
        | some val => (argFor settings o).extractValue val >>= fun extracted =>
            extracted.checkWithVisitor false >>= fun ignoring =>
              .ok ⟨true, token, value == [], { extracted with alreadySet := true }, ignoring⟩ := by
  have kind : (argFor settings o).processArg false token next =
      (argFor settings o).processValueArg false token next := by
    cases o <;> rfl
  have takes := (argMatches_argFor settings o head).mpr named
  have set : (argFor settings o).alreadySet = (settings.lookup o).isSome := rfl
  rw [kind, Arg.processValueArg]
  simp only [unblank, cut, takes, set, Bool.or_false, Bool.false_eq_true, if_false, if_true]
  split
  · rfl
  · by_cases empty : value = []
    · cases next <;> simp [empty] <;> rfl
    · simp [empty]; rfl

/-- A token that names an argument goes to that argument. -/
theorem offer_named {settings : List Setting} {o : HostOption} {token head value : Text}
    (named : head ∈ o.heads) (cut : trimFlag token = (head, value)) (next : Option Text) :
    ∃ before after, HostOption.all = before ++ o :: after ∧ o ∉ before ∧ o ∉ after ∧
      offer (argsFor settings) false token next =
        (offer (argFor settings o :: (after.map (argFor settings) ++
          [ignoreArg, versionArg, helpArg])) false token next).map
          fun taken => { taken with argList := before.map (argFor settings) ++ taken.argList } := by
  obtain ⟨before, after, split⟩ := List.append_of_mem o.mem_all
  have distinct : HostOption.all.Nodup := by decide
  rw [split, List.nodup_append] at distinct
  obtain ⟨-, distinct, apart⟩ := distinct
  have first : o ∉ before := fun member => apart o member o List.mem_cons_self rfl
  refine ⟨before, after, split, first, (List.nodup_cons.mp distinct).1, ?_⟩
  have passed : ∀ a ∈ before.map (argFor settings), a.Declines false token next := by
    intro a listed
    obtain ⟨other, member, rfl⟩ := List.mem_map.mp listed
    apply Arg.valueArg_declines next (argFor_valueRequired settings other)
    right
    rw [cut, Bool.eq_false_iff]
    intro takes
    have same := heads_disjoint named ((argMatches_argFor settings other head).mp takes)
    exact first (same ▸ member)
  rw [← offer_of_declines passed]
  simp [argsFor, split]

theorem argsFor_concat {settings : List Setting} {o : HostOption} {before after : List HostOption}
    (split : HostOption.all = before ++ o :: after) (first : o ∉ before) (last : o ∉ after)
    (value : Text) :
    argsFor (settings ++ [(o, value)]) =
      before.map (argFor settings) ++ argFor (settings ++ [(o, value)]) o ::
        (after.map (argFor settings) ++ [ignoreArg, versionArg, helpArg]) := by
  have kept : ∀ options : List HostOption, o ∉ options →
      options.map (argFor (settings ++ [(o, value)])) = options.map (argFor settings) := by
    intro options absent
    apply List.map_congr_left
    intro other member
    exact argFor_concat_of_ne value fun same => absent (same ▸ member)
  simp [argsFor, split, kept before first, kept after last]

/-- A token that names an argument sets it, if it has a value the argument can read and
is not set yet; else the command line is refused. -/
theorem parseToken_named {settings : List Setting} {o : HostOption} {token head value : Text}
    (named : head ∈ o.heads) (cut : trimFlag token = (head, value))
    (unblank : hasBlanks token = false) (next : Option Text) :
    (∃ val, (if value = [] then next else some value) = some val ∧
      settings.lookup o = none ∧ Extractable (o, val) ∧
      parseToken (stateFor settings) token next =
        .ok (stateFor (settings ++ [(o, val)]), value == [])) ∨
    (settings.lookup o = none → ∀ val, (if value = [] then next else some value) = some val →
        ¬ Extractable (o, val)) ∧
      ∃ error argId, parseToken (stateFor settings) token next =
        .error (.argException error argId) := by
  obtain ⟨before, after, split, first, last, offered⟩ :=
    @offer_named settings o token head value named cut next
  have processed := @processArg_named settings o token head value named cut unblank next
  have thrown : ∀ error argId, (argFor settings o).processArg false token next =
      .error (.argException error argId) →
      parseToken (stateFor settings) token next = .error (.argException error argId) := by
    intro error argId processed
    apply parseToken_thrown
    change offer (argsFor settings) false token next = _
    rw [offered, offer_of_thrown processed]
    rfl
  cases set : settings.lookup o with
  | some old =>
    right
    simp only [set, Option.isSome_some, if_true] at processed
    exact ⟨fun unset => (nomatch unset), _, _, thrown _ _ processed⟩
  | none =>
    simp only [set, Option.isSome_none, Bool.false_eq_true, if_false] at processed
    cases given : (if value = [] then next else some value) with
    | none =>
      right
      simp only [given] at processed
      exact ⟨fun _ val some_val => (nomatch some_val), _, _, thrown _ _ processed⟩
    | some val =>
      simp only [given] at processed
      by_cases readable : Extractable (o, val)
      · left
        obtain ⟨extracted, extracts, plain, now⟩ := argFor_extractValue set readable
        have quiet : extracted.checkWithVisitor false = .ok false := by
          rw [Arg.checkWithVisitor, plain]
        have done : (argFor settings o).processArg false token next =
            .ok ⟨true, token, value == [], argFor (settings ++ [(o, val)]) o, false⟩ := by
          rw [processed, extracts]
          change (extracted.checkWithVisitor false >>= _) = _
          rw [quiet, ← now]
          rfl
        refine ⟨val, rfl, rfl, readable, ?_⟩
        have accepted : offer (stateFor settings).argList (stateFor settings).ignoring token next =
            .ok ⟨argsFor (settings ++ [(o, val)]), some (argFor (settings ++ [(o, val)]) o), token,
              value == [], false⟩ := by
          change offer (argsFor settings) false token next = _
          rw [offered, offer_of_matched done rfl, argsFor_concat split first last]
          rfl
        rw [parseToken_matched accepted]
        simp [stateFor, argFor, List.countP_append, List.countP_cons]
      · right
        obtain ⟨error, argId, unread⟩ := argFor_extractValue_error set readable
        refine ⟨fun _ _ same => Option.some.inj same ▸ readable, error, argId,
          thrown error argId ?_⟩
        rw [processed, unread]
        rfl

/-! ### The switches -/

/-- A switch without a flag, or whose flag is the dash, is never in a combined switch. -/
theorem combinedSwitchesMatch_none {arg : Arg}
    (flagless : arg.flag = [] ∨ arg.flag = flagStartString) (token : Text) :
    arg.combinedSwitchesMatch token = none := by
  unfold Arg.combinedSwitchesMatch
  rcases flagless with flag | flag
  · simp only [flag]
    split_ifs <;> rfl
  · simp only [flag, flagStartString, flagStartChar, if_true]
    split_ifs <;> rfl

theorem ignoreArg_declines {token : Text} (other : ¬ StartsIgnoring token)
    (next : Option Text) : ignoreArg.Declines false token next := by
  apply Arg.switchArg_declines next rfl ?_ (combinedSwitchesMatch_none (.inr rfl) token)
  rw [Bool.eq_false_iff]
  intro takes
  apply other
  simpa [Arg.argMatches, ignoreArg, flagStartString, nameStartString, StartsIgnoring] using takes

theorem versionArg_declines {token : Text} (other : token ≠ "--version".toList)
    (next : Option Text) : versionArg.Declines false token next := by
  apply Arg.switchArg_declines next rfl ?_ (combinedSwitchesMatch_none (.inl rfl) token)
  rw [Bool.eq_false_iff]
  intro takes
  apply other
  simpa [Arg.argMatches, versionArg, flagStartString, nameStartString] using takes

theorem combinedSwitchesMatch_help (switches : Text) :
    helpArg.combinedSwitchesMatch (flagStartChar :: switches) =
      if switches.head? = some flagStartChar ∨ delimiter ∈ switches ∨ 'h' ∉ switches then none
      else some (flagStartChar :: switches.set (switches.idxOf 'h') blankChar) := by
  have long : (flagStartChar :: switches).take 2 = nameStartString ↔
      switches.head? = some flagStartChar := by
    cases switches <;> simp [nameStartString, flagStartChar]
  have spaced : delimiter ∈ flagStartChar :: switches ↔ delimiter ∈ switches := by
    simp [delimiter, flagStartChar]
  have letter : 'h' ≠ flagStartChar := by decide
  simp only [Arg.combinedSwitchesMatch, helpArg, long, spaced, letter, List.drop_one,
    List.tail_cons, List.head?_cons, ne_eq, not_true_eq_false, and_false, if_false]
  by_cases first : switches.head? = some flagStartChar
  · simp [first]
  by_cases space : delimiter ∈ switches
  · simp [first, space]
  by_cases member : 'h' ∈ switches
  · simp [first, space, member]
  · simp [first, space, member]

theorem combinedSwitchesMatch_help_of_ne {token : Text}
    (other : token.head? ≠ some flagStartChar) : helpArg.combinedSwitchesMatch token = none := by
  cases token with
  | nil => rfl
  | cons c cs => rw [Arg.combinedSwitchesMatch, if_pos ⟨by simp, other⟩]

/-- A switch blanked at its first place is still there if it was there twice. -/
theorem mem_set_idxOf (switches : Text) (member : 'h' ∈ switches) :
    'h' ∈ switches.set (switches.idxOf 'h') blankChar ↔ switches.count 'h' ≠ 1 := by
  induction switches with
  | nil => cases member
  | cons c cs ih =>
    by_cases here : c = 'h'
    · subst here
      have blank : 'h' ≠ blankChar := by decide
      simp [blank, List.count_eq_zero]
    · have later : 'h' ∈ cs := by
        rcases List.mem_cons.mp member with same | later
        · exact absurd same.symm here
        · exact later
      have index : (c :: cs).idxOf 'h' = cs.idxOf 'h' + 1 := by
        rw [List.idxOf_cons, cond_eq_ite, if_neg (by simpa using here)]
      rw [index, List.set_cons_succ, List.mem_cons, ih later, List.count_cons]
      simp [here, Ne.symm here]

/-- Second round of the help switch over the token it has blanked. -/
theorem combinedSwitchesMatch_help_again {switches : Text}
    (first : switches.head? ≠ some flagStartChar) (unspaced : delimiter ∉ switches)
    (member : 'h' ∈ switches) :
    (helpArg.combinedSwitchesMatch
      (flagStartChar :: switches.set (switches.idxOf 'h') blankChar)).isSome =
        decide (switches.count 'h' ≠ 1) := by
  have head : (switches.set (switches.idxOf 'h') blankChar).head? ≠ some flagStartChar := by
    cases switches with
    | nil => cases member
    | cons c cs =>
      cases (c :: cs).idxOf 'h' with
      | zero => simp [blankChar, flagStartChar]
      | succ n => exact first
  have spaces : delimiter ∉ switches.set (switches.idxOf 'h') blankChar := by
    intro space
    rcases List.mem_or_eq_of_mem_set space with space | blank
    · exact unspaced space
    · exact absurd blank (by decide)
  rw [combinedSwitchesMatch_help]
  simp only [head, spaces, mem_set_idxOf switches member, false_or]
  by_cases once : switches.count 'h' = 1
  · simp [once]
  · simp [once]

/-- A combined switch with an `h` in it leaves by the exit or, with two, by an error. -/
theorem processArg_help_combined {switches : Text}
    (first : switches.head? ≠ some flagStartChar) (unspaced : delimiter ∉ switches)
    (member : 'h' ∈ switches) (next : Option Text) :
    helpArg.processArg false (flagStartChar :: switches) next =
      .error (if switches.count 'h' = 1 then .exitException 0
        else .argException alreadySetError helpArg.toString) := by
  have kind : helpArg.processArg false (flagStartChar :: switches) next =
      helpArg.processSwitchArg false (flagStartChar :: switches) := rfl
  rw [kind, Arg.processSwitchArg, if_neg (by decide)]
  by_cases whole : helpArg.argMatches (flagStartChar :: switches) = true
  · have alone : switches = ['h'] := by
      have names : switches = ['h'] ∨ switches = "-help".toList := by
        simpa [Arg.argMatches, helpArg, flagStartString, nameStartString, flagStartChar]
          using whole
      apply names.resolve_right
      rintro rfl
      exact first rfl
    rw [if_pos whole, alone]
    rfl
  · have conditions : ¬ (switches.head? = some flagStartChar ∨ delimiter ∈ switches ∨
        'h' ∉ switches) := by
      simp [first, unspaced, member]
    rw [if_neg whole, combinedSwitchesMatch_help, if_neg conditions]
    change (if _ then _ else _) = _
    rw [combinedSwitchesMatch_help_again first unspaced member]
    by_cases once : switches.count 'h' = 1
    · simp only [once, ne_eq, not_true_eq_false, decide_false, Bool.false_eq_true, if_false]
      rfl
    · simp [once]

/-- What the help switch does with a token that nothing before it took. -/
theorem processArg_help (token : Text) (next : Option Text) :
    AsksForExit token ∨
    (∃ error argId, helpArg.processArg false token next =
      .error (.argException error argId)) ∨
    helpArg.Declines false token next := by
  by_cases long : token = "--help".toList
  · left
    exact .inl long
  by_cases combined : ∃ switches, token = flagStartChar :: switches ∧
      switches.head? ≠ some flagStartChar ∧ delimiter ∉ switches ∧ 'h' ∈ switches
  · obtain ⟨switches, rfl, first, unspaced, member⟩ := combined
    by_cases once : switches.count 'h' = 1
    · left
      exact .inr (.inr ⟨switches, rfl, first, unspaced, once⟩)
    · right; left
      refine ⟨alreadySetError, helpArg.toString, ?_⟩
      rw [processArg_help_combined first unspaced member next, if_neg once]
  · right; right
    have apart : helpArg.combinedSwitchesMatch token = none := by
      by_cases dash : token.head? = some flagStartChar
      · obtain ⟨switches, rfl⟩ := List.head?_eq_some_iff.mp dash
        rw [combinedSwitchesMatch_help, if_pos]
        by_contra conditions
        push Not at conditions
        exact combined ⟨switches, rfl, conditions.1, conditions.2.1, conditions.2.2⟩
      · exact combinedSwitchesMatch_help_of_ne dash
    have other : helpArg.argMatches token = false := by
      rw [Bool.eq_false_iff]
      intro whole
      have names : token = ['-', 'h'] ∨ token = "--help".toList := by
        simpa [Arg.argMatches, helpArg, flagStartString, nameStartString] using whole
      rcases names with rfl | same
      · exact combined ⟨['h'], rfl, by decide, by decide, by decide⟩
      · exact long same
    exact Arg.switchArg_declines next rfl other apart

/-! ### A token that names no argument -/

def Named (token : Text) : Prop :=
  hasBlanks token = false ∧ ∃ o : HostOption, (trimFlag token).1 ∈ o.heads

/-- The switches are offered a token that names no argument. -/
theorem offer_unnamed {token : Text} (unnamed : ¬ Named token) (settings : List Setting)
    (next : Option Text) :
    offer (argsFor settings) false token next =
      (offer [ignoreArg, versionArg, helpArg] false token next).map fun taken =>
        { taken with argList := HostOption.all.map (argFor settings) ++ taken.argList } := by
  apply offer_of_declines
  intro a listed
  obtain ⟨o, -, rfl⟩ := List.mem_map.mp listed
  apply Arg.valueArg_declines next (argFor_valueRequired settings o)
  cases blanks : hasBlanks token with
  | true => exact .inl rfl
  | false =>
    right
    rw [Bool.eq_false_iff]
    intro takes
    exact unnamed ⟨blanks, o, (argMatches_argFor settings o _).mp takes⟩

theorem unnamed_of_plain {token : Text} (plain : delimiter ∉ token)
    (other : ∀ o : HostOption, token ∉ o.heads) : ¬ Named token := by
  rintro ⟨-, o, named⟩
  rw [trimFlag_of_not_mem plain] at named
  exact other o named

theorem startsIgnoring_unnamed {token : Text} (starts : StartsIgnoring token) :
    ¬ Named token := by
  rcases starts with rfl | rfl
  · apply unnamed_of_plain (by decide)
    intro o
    cases o <;> decide
  · apply unnamed_of_plain (by decide)
    intro o
    cases o <;> decide

theorem blank_unnamed {token : Text} (blank : Blank token) : ¬ Named token := by
  rcases blank with rfl | ⟨n, rfl⟩
  · apply unnamed_of_plain (by decide)
    intro o
    cases o <;> decide
  · apply unnamed_of_plain (by simp [delimiter, flagStartChar, blankChar])
    intro o named
    obtain ⟨-, unblank, long⟩ := heads_plain named
    cases n with
    | zero => simp at long
    | succ n => simp at unblank

theorem asksForExit_unnamed {token : Text} (asks : AsksForExit token) : ¬ Named token := by
  rcases asks with rfl | rfl | ⟨switches, rfl, first, unspaced, once⟩
  · apply unnamed_of_plain (by decide)
    intro o
    cases o <;> decide
  · apply unnamed_of_plain (by decide)
    intro o
    cases o <;> decide
  · apply unnamed_of_plain (by simpa [delimiter, flagStartChar] using unspaced)
    intro o named
    have short : switches = [o.flag] := by
      simp only [HostOption.heads, List.mem_cons, List.not_mem_nil, or_false] at named
      rcases named with short | long
      · exact (List.cons.inj short).2
      · rw [(List.cons.inj long).2] at first
        exact absurd rfl first
    rw [short] at once
    revert once
    cases o <;> decide

def ignoringArg : Arg := { ignoreArg with alreadySet := true, value := .switch true }

/-- The state behind a token that starts the ignoring. -/
def ignoringFor (settings : List Setting) : Parsing :=
  ⟨HostOption.all.map (argFor settings) ++ [ignoringArg, versionArg, helpArg], true,
    (stateFor settings).requiredCount⟩

theorem parseToken_startsIgnoring {token : Text} (starts : StartsIgnoring token)
    (settings : List Setting) (next : Option Text) :
    parseToken (stateFor settings) token next = .ok (ignoringFor settings, false) := by
  have taken : offer [ignoreArg, versionArg, helpArg] false token next =
      .ok ⟨[ignoringArg, versionArg, helpArg], some ignoringArg, token, false, true⟩ := by
    rcases starts with rfl | rfl <;> rfl
  have offered : offer (stateFor settings).argList (stateFor settings).ignoring token next =
      .ok ⟨(ignoringFor settings).argList, some ignoringArg, token, false, true⟩ := by
    change offer (argsFor settings) false token next = _
    rw [offer_unnamed (startsIgnoring_unnamed starts), taken]
    rfl
  exact parseToken_matched offered

theorem parseToken_asksForExit {token : Text} (asks : AsksForExit token)
    (settings : List Setting) (next : Option Text) :
    parseToken (stateFor settings) token next = .error (.exitException 0) := by
  have taken : offer [ignoreArg, versionArg, helpArg] false token next =
      .error (.exitException 0) := by
    rcases asks with rfl | rfl | ⟨switches, rfl, first, unspaced, once⟩
    · rfl
    · rfl
    · have member : 'h' ∈ switches := List.count_pos_iff.mp (by omega)
      have ignores : ¬ StartsIgnoring (flagStartChar :: switches) := by
        rintro (same | same) <;> rw [(List.cons.inj same).2] at first <;> exact first rfl
      have version : flagStartChar :: switches ≠ "--version".toList := by
        intro same
        rw [(List.cons.inj same).2] at first
        exact first rfl
      have step := processArg_help_combined first unspaced member next
      rw [if_pos once] at step
      rw [offer_cons_of_declines (ignoreArg_declines ignores next),
        offer_cons_of_declines (versionArg_declines version next), offer_of_thrown step]
      rfl
  apply parseToken_thrown
  change offer (argsFor settings) false token next = _
  rw [offer_unnamed (asksForExit_unnamed asks), taken]
  rfl

theorem emptyCombined_iff (token : Text) : emptyCombined token = true ↔ Blank token := by
  cases token with
  | nil => simp [emptyCombined, Blank]
  | cons c cs =>
    have dash : ((c :: cs) != [] && (c :: cs).head? != some flagStartChar) = false ↔
        c = flagStartChar := by
      simp
    rw [emptyCombined, Bool.and_eq_true, Bool.not_eq_true', dash, Blank]
    simp only [List.drop_one, List.tail_cons, List.all_eq_true, beq_iff_eq, reduceCtorEq,
      false_or, List.cons.injEq]
    constructor
    · rintro ⟨rfl, blanks⟩
      exact ⟨cs.length, rfl, List.eq_replicate_iff.mpr ⟨rfl, blanks⟩⟩
    · rintro ⟨n, rfl, rfl⟩
      exact ⟨rfl, fun _ => List.eq_of_mem_replicate⟩

/-- The help switch is the last to be offered a token. -/
theorem offer_help {token : Text} (unnamed : ¬ Named token) (starts : ¬ StartsIgnoring token)
    (version : token ≠ "--version".toList) (settings : List Setting) (next : Option Text) :
    offer (stateFor settings).argList (stateFor settings).ignoring token next =
      (offer [helpArg] false token next).map fun taken =>
        { taken with argList := HostOption.all.map (argFor settings) ++
            ([ignoreArg, versionArg] ++ taken.argList) } := by
  change offer (argsFor settings) false token next = _
  rw [offer_unnamed unnamed, offer_cons_of_declines (ignoreArg_declines starts next),
    offer_cons_of_declines (versionArg_declines version next)]
  cases offer [helpArg] false token next <;> rfl

/-- A token that nobody takes. -/
theorem parseToken_passed {token : Text} {next : Option Text} (unnamed : ¬ Named token)
    (starts : ¬ StartsIgnoring token) (version : token ≠ "--version".toList)
    (declined : helpArg.Declines false token next) (settings : List Setting) :
    parseToken (stateFor settings) token next =
      if emptyCombined token = true then .ok (stateFor settings, false)
      else .error (.argException "Couldn't find match for argument".toList token) := by
  have passed := @parseToken_unmatched (stateFor settings) token next (by
    rw [offer_help unnamed starts version, offer_cons_of_declines declined]
    rfl)
  rw [passed]
  cases emptyCombined token
  · rw [if_pos ⟨rfl, rfl⟩, if_neg (by decide)]
  · rw [if_neg (by simp), if_pos rfl]

theorem parseToken_blank {token : Text} (blank : Blank token) (settings : List Setting)
    (next : Option Text) :
    parseToken (stateFor settings) token next = .ok (stateFor settings, false) := by
  have starts : ¬ StartsIgnoring token := by
    rcases blank with rfl | ⟨_ | n, rfl⟩ <;> rintro (same | same) <;> simp_all [nameStartString,
      flagStartChar, blankChar, List.replicate_succ]
  have version : token ≠ "--version".toList := by
    rcases blank with rfl | ⟨_ | n, rfl⟩ <;> simp [flagStartChar, blankChar, List.replicate_succ]
  have declined : helpArg.Declines false token next := by
    apply Arg.switchArg_declines next rfl
    · rcases blank with rfl | ⟨_ | n, rfl⟩ <;>
        simp [Arg.argMatches, helpArg, flagStartString, nameStartString, flagStartChar, blankChar,
          List.replicate_succ]
    · rcases blank with rfl | ⟨n, rfl⟩
      · rfl
      · have absent : 'h' ∉ List.replicate n blankChar := by simp [blankChar]
        rw [combinedSwitchesMatch_help, if_pos (.inr (.inr absent))]
  rw [parseToken_passed (blank_unnamed blank) starts version declined,
    if_pos ((emptyCombined_iff token).mpr blank)]

/-- What becomes of a token that names no argument. -/
theorem parseToken_unnamed {token : Text} (unnamed : ¬ Named token) (settings : List Setting)
    (next : Option Text) :
    StartsIgnoring token ∨ AsksForExit token ∨ Blank token ∨
      ∃ error argId, parseToken (stateFor settings) token next =
        .error (.argException error argId) := by
  by_cases starts : StartsIgnoring token
  · exact .inl starts
  by_cases version : token = "--version".toList
  · exact .inr (.inl (.inr (.inl version)))
  rcases processArg_help token next with asks | ⟨error, argId, thrown⟩ | declined
  · exact .inr (.inl asks)
  · right; right; right
    refine ⟨error, argId, parseToken_thrown ?_⟩
    rw [offer_help unnamed starts version, offer_of_thrown thrown]
    rfl
  · right; right
    by_cases empty : emptyCombined token = true
    · exact .inl ((emptyCombined_iff token).mp empty)
    · right
      exact ⟨_, _, by rw [parseToken_passed unnamed starts version declined, if_neg empty]⟩

/-! ### A command line -/

theorem lookup_none_of_nodup {settings more : List Setting} {o : HostOption} {value : Text}
    (accepted : Accepted (settings ++ (o, value) :: more)) : settings.lookup o = none := by
  rw [List.lookup_eq_none_iff]
  intro setting member
  have distinct := accepted.1
  rw [List.map_append, List.map_cons, List.nodup_append] at distinct
  have apart := distinct.2.2 setting.1 (List.mem_map_of_mem member) o List.mem_cons_self
  simpa using Ne.symm apart

theorem hasBlanks_eq_false {token : Text} (unblank : blankChar ∉ token) :
    hasBlanks token = false := by
  rw [hasBlanks, List.any_eq_false]
  intro c member
  simp only [beq_iff_eq]
  rintro rfl
  exact unblank (List.mem_of_mem_drop member)

theorem parseToken_sets {done more : List Setting} {o : HostOption}
    {token head value val : Text} {next : Option Text} (named : head ∈ o.heads)
    (cut : trimFlag token = (head, value)) (unblank : hasBlanks token = false)
    (given : (if value = [] then next else some value) = some val)
    (accepted : Accepted (done ++ (o, val) :: more)) :
    parseToken (stateFor done) token next =
      .ok (stateFor (done ++ [(o, val)]), value == []) := by
  have unset := lookup_none_of_nodup accepted
  have readable : Extractable (o, val) := accepted.2 (o, val) (by simp)
  rcases parseToken_named named cut unblank next with
    ⟨read, given', -, -, sets⟩ | ⟨refused, -⟩
  · rw [given] at given'
    cases given'
    exact sets
  · exact absurd readable (refused unset val given)

/-- The loop over a piece of the command line that is spelled well. -/
theorem parseLoop_spelled {args : List Text} {settings : List Setting}
    (spelled : Spelled args settings) (rest : List Text) (done : List Setting)
    (accepted : Accepted (done ++ settings)) :
    parseLoop (stateFor done) false (args ++ rest) =
      parseLoop (stateFor (done ++ settings)) false rest := by
  induction spelled generalizing done with
  | nil => simp
  | @blank token args settings empty spelled ih =>
    rw [List.cons_append, parseLoop, parseToken_blank empty]
    exact ih done accepted
  | @apart o head token value args settings named written spelled ih =>
    obtain ⟨unspaced, unblank, long⟩ := heads_plain named
    have cut : trimFlag token = (head, []) := by
      rcases written with rfl | rfl
      · exact trimFlag_of_not_mem unspaced
      · exact trimFlag_append unspaced long
    have unblank : hasBlanks token = false := by
      have absent : blankChar ∉ token := by
        rcases written with rfl | rfl
        · exact unblank
        · simpa [blankChar, delimiter] using unblank
      exact hasBlanks_eq_false absent
    have sets := @parseToken_sets done settings o token head [] value (some value) named cut
      unblank rfl accepted
    rw [List.cons_append, parseLoop, List.cons_append, List.head?_cons, sets]
    have onward := ih (done ++ [(o, value)]) (by simpa using accepted)
    rw [List.append_assoc] at onward
    exact onward
  | @joined o head value args settings named some_value unblank spelled ih =>
    obtain ⟨unspaced, plain, long⟩ := heads_plain named
    have cut := @trimFlag_append head value unspaced long
    have unblank : hasBlanks (head ++ delimiter :: value) = false := by
      apply hasBlanks_eq_false
      simp only [List.mem_append, List.mem_cons, not_or]
      exact ⟨plain, by decide, unblank⟩
    have given : (if value = [] then (args ++ rest).head? else some value) = some value :=
      if_neg some_value
    have sets := parseToken_sets named cut unblank given accepted
    have separate : (value == []) = false := by simpa using some_value
    rw [List.cons_append, parseLoop, sets, separate]
    have onward := ih (done ++ [(o, value)]) (by simpa using accepted)
    rw [List.append_assoc] at onward
    exact onward

/-- A command line that is read to its end or to where the ignoring starts. -/
def Accepts (args : List Text) (settings : List Setting) : Prop :=
  ∃ read rest, args = read ++ rest ∧ Spelled read settings ∧ Accepted settings ∧
    (rest = [] ∨ ∃ token more, rest = token :: more ∧ StartsIgnoring token)

/-- Help or version is asked for before any mistake. -/
def AsksFirst (args : List Text) : Prop :=
  ∃ read token more settings, args = read ++ token :: more ∧ Spelled read settings ∧
    Accepted settings ∧ AsksForExit token

theorem Accepted.concat {settings : List Setting} {o : HostOption} {value : Text}
    (accepted : Accepted settings) (unset : settings.lookup o = none)
    (readable : Extractable (o, value)) : Accepted (settings ++ [(o, value)]) := by
  obtain ⟨distinct, numbers⟩ := accepted
  rw [List.lookup_eq_none_iff] at unset
  constructor
  · rw [List.map_append, List.nodup_append]
    refine ⟨distinct, by simp, ?_⟩
    intro other listed added new
    obtain ⟨setting, member, rfl⟩ := List.mem_map.mp listed
    have apart := unset setting member
    simp only [List.map_cons, List.map_nil, List.mem_singleton] at new
    rw [new]
    simpa using Ne.symm (by simpa using apart)
  · intro setting member
    rcases List.mem_append.mp member with old | new
    · exact numbers setting old
    · rw [List.mem_singleton.mp new]
      exact readable

/-- The parser does not go on behind these settings with the next token. -/
def Stops (settings : List Setting) : List Text → Prop
  | [] => True
  | token :: more => StartsIgnoring token ∨ AsksForExit token ∨
      ∃ error argId, parseToken (stateFor settings) token more.head? =
        .error (.argException error argId)

/-- The longest piece of a command line that is spelled well, and what is behind it. -/
theorem spelled_longest (args : List Text) (done : List Setting) (accepted : Accepted done) :
    ∃ read rest settings, args = read ++ rest ∧ Spelled read settings ∧
      Accepted (done ++ settings) ∧ Stops (done ++ settings) rest := by
  induction length : args.length using Nat.strong_induction_on generalizing args done with
  | _ n ih =>
    subst length
    cases args with
    | nil => exact ⟨[], [], [], rfl, .nil, by simpa using accepted, trivial⟩
    | cons token args =>
      have here : Stops done (token :: args) → ∃ read rest settings,
          token :: args = read ++ rest ∧ Spelled read settings ∧
            Accepted (done ++ settings) ∧ Stops (done ++ settings) rest := fun stops =>
        ⟨[], token :: args, [], rfl, .nil, by simpa using accepted, by simpa using stops⟩
      by_cases named : Named token
      · obtain ⟨unblank, o, named⟩ := named
        have pieces := trimFlag_cases token
        rcases cut : trimFlag token with ⟨head, value⟩
        rw [cut] at named pieces
        obtain ⟨unspaced, -, long⟩ := heads_plain named
        rcases @parseToken_named done o token head value named cut unblank args.head? with
          ⟨val, given, unset, readable, -⟩ | ⟨-, thrown⟩
        · have accepted' := accepted.concat unset readable
          by_cases separate : value = []
          · -- the value is the next token
            rw [if_pos separate] at given
            obtain ⟨more, rfl⟩ := List.head?_eq_some_iff.mp given
            have written : token = head ∨ token = head ++ [delimiter] := by
              rcases pieces with whole | joined
              · exact .inl (Prod.mk.inj whole).1.symm
              · exact .inr (separate ▸ joined)
            obtain ⟨read, rest, settings, rfl, spelled, all, stops⟩ :=
              ih more.length (by simp only [List.length_cons]; omega) more _ accepted' rfl
            rw [List.append_assoc] at all stops
            exact ⟨token :: val :: read, rest, (o, val) :: settings, rfl,
              .apart named written spelled, all, stops⟩
          · rw [if_neg separate] at given
            cases given
            have joined : token = head ++ delimiter :: value := by
              rcases pieces with whole | joined
              · exact absurd (Prod.mk.inj whole).2 separate
              · exact joined
            have plain : blankChar ∉ value := by
              intro blank
              have inside : blankChar ∈ token.drop 1 := by
                rw [joined, List.drop_append_of_le_length (Nat.le_of_lt long)]
                simp [blank]
              simp only [hasBlanks, List.any_eq_false] at unblank
              exact unblank blankChar inside (by simp)
            obtain ⟨read, rest, settings, rfl, spelled, all, stops⟩ :=
              ih args.length (by simp only [List.length_cons]; omega) args _ accepted' rfl
            rw [List.append_assoc] at all stops
            refine ⟨token :: read, rest, (o, value) :: settings, rfl, ?_, all, stops⟩
            rw [joined]
            exact .joined named separate plain spelled
        · exact here (.inr (.inr thrown))
      · rcases parseToken_unnamed named done args.head? with starts | asks | blank | thrown
        · exact here (.inl starts)
        · exact here (.inr (.inl asks))
        · obtain ⟨read, rest, settings, rfl, spelled, all, stops⟩ :=
            ih args.length (by simp only [List.length_cons]; omega) args done accepted rfl
          exact ⟨token :: read, rest, settings, rfl, .blank blank spelled, all, stops⟩
        · exact here (.inr (.inr thrown))

/-! ### What the host is started with -/

theorem arg_of_prefix {s : Parsing} {settings : List Setting} {rest : List Arg}
    (list : s.argList = HostOption.all.map (argFor settings) ++ rest) (o : HostOption) :
    s.arg o = some (argFor settings o) := by
  rw [Parsing.arg, list]
  cases o <;> rfl

/-- The required argument counts once. -/
theorem requiredCount_stateFor {settings : List Setting}
    (distinct : (settings.map Prod.fst).Nodup) :
    (stateFor settings).requiredCount =
      if (settings.lookup .clrVersion).isSome then 1 else 0 := by
  change settings.countP (fun setting => setting.1 == .clrVersion) = _
  induction settings with
  | nil => rfl
  | cons setting settings ih =>
    obtain ⟨o, value⟩ := setting
    obtain ⟨absent, distinct⟩ := List.nodup_cons.mp distinct
    rw [List.countP_cons, ih distinct]
    by_cases required : o = .clrVersion
    · subst required
      have unset : settings.lookup .clrVersion = none := by
        rw [List.lookup_eq_none_iff]
        intro other member
        have apart : other.1 ≠ .clrVersion := by
          intro same
          exact absent (List.mem_map.mpr ⟨other, member, same⟩)
        simpa using Ne.symm apart
      simp [unset]
    · have differs : (HostOption.clrVersion == o) = false := by
        simpa using Ne.symm required
      rw [List.lookup_cons, differs]
      simp [required]

theorem means_of_values {settings : List Setting} {s : Parsing} {rest : List Arg}
    (accepted : Accepted settings)
    (list : s.argList = HostOption.all.map (argFor settings) ++ rest)
    (clrVersion : (settings.lookup .clrVersion).isSome = true)
    (database : (settings.lookup .snippetDataBase).isSome = true) (a : HostArguments) :
    a = ⟨s.stringValue .clrVersion, s.stringValue .assemblyFileName, s.stringValue .typeName,
      s.stringValue .methodName, s.stringValue .snippetDataBase, s.intValue .serverPort, false⟩ ↔
      Means settings a := by
  obtain ⟨version, clrVersion⟩ := Option.isSome_iff_exists.mp clrVersion
  obtain ⟨path, database⟩ := Option.isSome_iff_exists.mp database
  have text : ∀ o, o ≠ .serverPort →
      s.stringValue o = (settings.lookup o).getD o.default := by
    intro o other
    rw [Parsing.stringValue, arg_of_prefix list]
    simp [argFor, valueFor, other]
  have port : ∀ n, n = s.intValue .serverPort ↔ match settings.lookup .serverPort with
      | none => n = defaultPort
      | some text => text = [] ∧ n = defaultPort ∨ IntegerText text n := by
    intro n
    rw [Parsing.intValue, arg_of_prefix list]
    cases given : settings.lookup .serverPort with
    | none => simp [argFor, valueFor, given]
    | some text =>
      simp only [← extractInt_eq_ok_iff]
      have readable := accepted.2 (.serverPort, text) (by
        obtain ⟨before, after, split, -⟩ := List.lookup_eq_some_iff.mp given
        simp [split])
      obtain ⟨m, extracts⟩ := (extractable_iff text).mp readable
      simp [argFor, valueFor, given, extracts, eq_comm]
  rw [text .clrVersion (by decide), text .assemblyFileName (by decide),
    text .typeName (by decide), text .methodName (by decide), text .snippetDataBase (by decide),
    clrVersion, database]
  constructor
  · rintro rfl
    exact ⟨clrVersion, database, rfl, rfl, rfl, (port _).mp rfl, rfl⟩
  · rintro ⟨version', path', assembly, type, method, number, mode⟩
    rw [clrVersion] at version'
    rw [database] at path'
    obtain ⟨_, _, _, _, _, _, _⟩ := a
    simp only [HostArguments.mk.injEq]
    exact ⟨(Option.some.inj version').symm, assembly.symm, type.symm, method.symm,
      (Option.some.inj path').symm, (port _).mpr number, mode⟩

/-- The loop over an accepted command line. -/
theorem parseLoop_accepts {args : List Text} {settings : List Setting}
    (accepts : Accepts args settings) :
    Accepted settings ∧ ∃ s rest, parseLoop (stateFor []) false args = .ok s ∧
      s.argList = HostOption.all.map (argFor settings) ++ rest ∧
      s.requiredCount = (stateFor settings).requiredCount := by
  obtain ⟨read, rest, rfl, spelled, accepted, ending⟩ := accepts
  refine ⟨accepted, ?_⟩
  rw [parseLoop_spelled spelled rest [] accepted, List.nil_append]
  rcases ending with rfl | ⟨token, more, rfl, starts⟩
  · exact ⟨stateFor settings, _, rfl, rfl, rfl⟩
  · refine ⟨ignoringFor settings, _, ?_, rfl, rfl⟩
    rw [parseLoop, parseToken_startsIgnoring starts]
    exact parseLoop_ignoring (ignoringFor settings) rfl more false

/-- `main` behind a command line that was read without an exit. -/
theorem hostArguments_of_accepts {args : List Text} {settings : List Setting}
    (accepts : Accepts args settings) :
    (∀ a, hostArguments args = .ok a ↔ Means settings a) ∧
      ∀ status, hostArguments args = .error status → status = 1 := by
  obtain ⟨accepted, s, rest, parsed, list, counted⟩ := parseLoop_accepts accepts
  have set : s.isSet .snippetDataBase = (settings.lookup .snippetDataBase).isSome := by
    rw [Parsing.isSet, arg_of_prefix list]
    rfl
  rw [requiredCount_stateFor accepted.1] at counted
  have run : hostArguments args =
      if (settings.lookup .clrVersion).isSome ∧ (settings.lookup .snippetDataBase).isSome then
        .ok ⟨s.stringValue .clrVersion, s.stringValue .assemblyFileName, s.stringValue .typeName,
          s.stringValue .methodName, s.stringValue .snippetDataBase, s.intValue .serverPort, false⟩
      else .error 1 := by
    have parseArgs : (⟨argsFor [], 1⟩ : CmdLine).parseArgs args =
        if (settings.lookup .clrVersion).isSome then .ok s
        else .error (missingArgsException s.argList) := by
      rw [CmdLine.parseArgs]
      change (parseLoop (stateFor []) false args >>= _) = _
      rw [parsed]
      change (if s.requiredCount < 1 then _ else _) = _
      rw [counted]
      cases (settings.lookup .clrVersion).isSome <;> rfl
    rw [hostArguments, simpleCLRHost_eq]
    change ((⟨argsFor [], 1⟩ : CmdLine).parse args >>= _) = _
    rw [CmdLine.parse, parseArgs]
    cases (settings.lookup .clrVersion).isSome with
    | false => rfl
    | true =>
      change (if (!s.isSet .snippetDataBase) = true then _ else _) = _
      rw [set]
      cases (settings.lookup .snippetDataBase).isSome <;> rfl
  by_cases required : (settings.lookup .clrVersion).isSome ∧
      (settings.lookup .snippetDataBase).isSome
  · rw [run, if_pos required]
    constructor
    · intro a
      rw [← means_of_values accepted list required.1 required.2 a]
      simp [eq_comm]
    · intro status stopped
      cases stopped
  · rw [run, if_neg required]
    constructor
    · intro a
      refine ⟨fun started => (nomatch started), fun means => absurd ⟨?_, ?_⟩ required⟩
      · rw [means.clrVersion]; rfl
      · rw [means.snippetDataBase]; rfl
    · intro status stopped
      cases stopped
      rfl

theorem hostArguments_of_thrown {args : List Text} {thrown : Thrown}
    (stopped : parseLoop (stateFor []) false args = .error thrown) :
    hostArguments args = .error thrown.exitStatus := by
  rw [hostArguments, simpleCLRHost_eq]
  change ((⟨argsFor [], 1⟩ : CmdLine).parse args >>= _) = _
  rw [CmdLine.parse, CmdLine.parseArgs]
  change ((parseLoop (stateFor []) false args >>= _).mapError Thrown.exitStatus >>= _) = _
  rw [stopped]
  rfl

theorem hostArguments_of_asksFirst {args : List Text} (asks : AsksFirst args) :
    hostArguments args = .error 0 := by
  obtain ⟨read, token, more, settings, rfl, spelled, accepted, asks⟩ := asks
  have stopped : parseLoop (stateFor []) false (read ++ token :: more) =
      .error (.exitException 0) := by
    rw [parseLoop_spelled spelled (token :: more) [] accepted, parseLoop,
      parseToken_asksForExit asks]
    rfl
  exact hostArguments_of_thrown stopped

/-- Every command line is accepted, asks for help or version, or is refused. -/
theorem commandLine_cases (args : List Text) :
    (∃ settings, Accepts args settings) ∨ AsksFirst args ∨ hostArguments args = .error 1 := by
  obtain ⟨read, rest, settings, rfl, spelled, accepted, stops⟩ :=
    spelled_longest args [] ⟨List.nodup_nil, by simp⟩
  cases rest with
  | nil => exact .inl ⟨settings, read, [], rfl, spelled, accepted, .inl rfl⟩
  | cons token more =>
    rcases stops with starts | asks | ⟨error, argId, thrown⟩
    · exact .inl ⟨settings, read, _, rfl, spelled, accepted, .inr ⟨token, more, rfl, starts⟩⟩
    · exact .inr (.inl ⟨read, token, more, settings, rfl, spelled, accepted, asks⟩)
    · right; right
      have stopped : parseLoop (stateFor []) false (read ++ token :: more) =
          .error (.argException error argId) := by
        rw [parseLoop_spelled spelled (token :: more) [] accepted, parseLoop, thrown]
        rfl
      exact hostArguments_of_thrown stopped

/-- The outcome of every command line. The host starts exactly when the tokens spell
settings, each argument once at most, with a version and a database and a number for the
port, and then with what these mean; the process ends with 0 exactly when help or version
is asked for before any mistake, and with 1 otherwise. -/
theorem hostArguments_outcome (args : List Text) :
    (∀ a, hostArguments args = .ok a ↔ ∃ settings, Accepts args settings ∧ Means settings a) ∧
      (hostArguments args = .error 0 ↔ AsksFirst args) ∧
      ∀ status, hostArguments args = .error status → status = 0 ∨ status = 1 := by
  refine ⟨fun a => ⟨fun started => ?_, ?_⟩, ⟨fun stopped => ?_, hostArguments_of_asksFirst⟩,
    fun status stopped => ?_⟩
  · rcases commandLine_cases args with ⟨settings, accepts⟩ | asks | refused
    · exact ⟨settings, accepts, ((hostArguments_of_accepts accepts).1 a).mp started⟩
    · rw [hostArguments_of_asksFirst asks] at started
      cases started
    · rw [refused] at started
      cases started
  · rintro ⟨settings, accepts, means⟩
    exact ((hostArguments_of_accepts accepts).1 a).mpr means
  · rcases commandLine_cases args with ⟨settings, accepts⟩ | asks | refused
    · cases (hostArguments_of_accepts accepts).2 0 stopped
    · exact asks
    · rw [refused] at stopped
      cases stopped
  · rcases commandLine_cases args with ⟨settings, accepts⟩ | asks | refused
    · exact .inr ((hostArguments_of_accepts accepts).2 status stopped)
    · rw [hostArguments_of_asksFirst asks] at stopped
      cases stopped
      exact .inl rfl
    · rw [refused] at stopped
      cases stopped
      exact .inr rfl

end HostedPumpkin
