import HostedPumpkin.Submission.Patching
import HostedPumpkin.Web.SnippetRepository

/-!
The way of a snippet through the site: `SubmitSnippet` of the `HomeController` compiles
what was typed in, patches the assembly and saves it; the host gets it from the table when
it is asked to run it, gives it to the pool and stores the health of the result;
`DeleteSnippet` deletes it. Requests of any number of browsers and connections come in any
order, and a snippet may be deleted, or run again, between any two of these.

The compiler, and reading and writing a module, are parameters. A statement fails as a
whole.
-/

namespace HostedPumpkin

open Utf16 Runs

/-- What `CompileWithCSC` returns: the assembly or the errors; it may throw. -/
inductive Compilation where
  | success (assemblyBytes : List UInt8)
  | errors (texts : List String)
  | throws

/-- The code outside that `SubmitSnippet` calls, and what `PatchAssembly` reads of the
monitor. -/
structure Toolchain where
  compileWithCSC : String → Option String → Compilation
  readModule : List UInt8 → Option ModuleDefinition
  write : ModuleDefinition → List UInt8
  stringHash : String → UInt32
  importMethod : MethodDefinition → MethodReference
  buckets : Nat
  monitorType : TypeDefinition
  monitorTypeRef : TypeReference

/-- `PatchAssembly` on bytes; `none` is an exception. -/
def Toolchain.patchAssembly (tc : Toolchain) (compiledSnippet : List UInt8)
    (className : String) : Option (List UInt8) :=
  match tc.readModule compiledSnippet with
  | none => none
  | some module =>
      match SnippetCompiler.patchAssembly tc.stringHash tc.importMethod tc.buckets
          tc.monitorType tc.monitorTypeRef module className with
      | .error _ => none
      | .ok patched => some (tc.write patched)

/-- The fields of the form; an empty one is null. -/
structure SnippetForm where
  usingDirectives : Option String
  snippetClasses : Option String
  snippetMain : Option String
  compilerVersion : Option String

namespace HomeController

def snippetUsing : String := "\nusing System;\nusing System.Collections.Generic;\n"

def snippetClassHeader : String := "\nnamespace Snippets \x7b\n"

/-- `SnippetMainHeader()`. -/
def snippetMainHeader : String :=
  "\n    public class " ++ SnippetData.snippetTypeName ++ " \x7b\n        public static void " ++
    SnippetData.snippetMethodName ++ "() \x7b\n"

def snippetFooter : String := "\n        \x7d\n    \x7d\n\x7d"

/-- The text that is compiled. -/
def snippetSource (form : SnippetForm) : String :=
  snippetUsing ++ form.usingDirectives.getD "" ++ snippetClassHeader ++
    form.snippetClasses.getD "" ++ snippetMainHeader ++ form.snippetMain.getD "" ++ snippetFooter

/-- The assembly that `SubmitSnippet` saves, or the status it answers with. -/
def patchedAssembly (tc : Toolchain) (form : SnippetForm) : Except Nat (List UInt8) :=
  match tc.compileWithCSC (snippetSource form) form.compilerVersion with
  | .throws => .error 500
  | .errors _ => .error 400
  | .success assemblyBytes =>
      match tc.patchAssembly assemblyBytes ("Snippets." ++ SnippetData.snippetTypeName) with
      | none => .error 500
      | some patched => .ok patched

end HomeController

/-- The table, what the host has read and not given to the pool, the runs it has begun and
not ended, and what has been answered to the forms. Two fields are history. -/
structure SnippetSite where
  table : List SnippetRow
  requested : List (Guid × SubmittedSnippet)
  running : List Guid
  statuses : List Nat
  events : List StoreEvent
  /-- What the pool was given, with the id it was asked for. -/
  given : List (Guid × SubmittedSnippet)

inductive SiteAction where
  | submitSnippet (form : SnippetForm) (newGuid : Guid) (inserted : Bool)
  | deleteSnippet (snippetId : List CodeUnit) (deleted : Bool)
  /-- `repository.Get` for a command, and the `SnippetInfo` it makes. -/
  | getSnippet (command : List CodeUnit) (submissionId : Guid)
  /-- `domainPool.SubmitSnippet`; it throws when the queue is completed. -/
  | beginRun (k : Nat) (added : Bool)
  | endRun (k : Nat) (result : Option ReportedResult) (updated : Bool)

inductive SiteFault where
  | usedGuid
  | notEnabled
deriving DecidableEq, Repr

/-- The ids of the snippets that were ever saved. -/
def savedIds (events : List StoreEvent) : List Guid :=
  events.filterMap fun
    | .saved id _ => some id
    | _ => none

namespace SnippetSite

def initial : SnippetSite := ⟨[], [], [], [], [], []⟩

def step (tc : Toolchain) (f : Formats) (sqlEquals : List CodeUnit → List CodeUnit → Bool)
    (s : SnippetSite) : SiteAction → Except SiteFault SnippetSite
  | .submitSnippet form newGuid inserted =>
      match HomeController.patchedAssembly tc form with
      | .error status => .ok { s with statuses := s.statuses ++ [status] }
      | .ok patched =>
          -- `Guid.NewGuid` makes an id that was not there before
          if newGuid ∈ savedIds s.events then .error .usedGuid
          else if inserted then
            .ok { s with
              table := SnippetDataRepository.save s.table newGuid form.usingDirectives
                form.snippetClasses form.snippetMain patched form.compilerVersion
              statuses := s.statuses ++ [204]
              events := s.events ++ [.saved newGuid (SnippetDataRepository.newColumns
                form.usingDirectives form.snippetClasses form.snippetMain patched
                form.compilerVersion)] }
          else .ok { s with statuses := s.statuses ++ [500] }
  | .deleteSnippet snippetId deleted =>
      if deleted then
        .ok { s with
          table := SnippetDataRepository.delete sqlEquals s.table snippetId
          events := s.events ++ [.deleted snippetId] }
      else .ok s
  | .getSnippet command submissionId =>
      if f.hasEof command then .ok s
      else
        match f.parseGuid command with
        | none => .ok s
        | some snippetId =>
            match SnippetDataRepository.get sqlEquals s.table snippetId with
            | .error _ => .ok s
            -- `snippetData.AssemblyBytes` on a null record
            | .ok none => .ok s
            | .ok (some snippetData) =>
                .ok { s with
                  requested := s.requested ++ [(snippetId, {
                    assemblyFile := snippetData.assemblyBytes
                    mainTypeName := SnippetData.snippetTypeName
                    methodName := SnippetData.snippetMethodName
                    submissionId })] }
  | .beginRun k added =>
      match s.requested[k]? with
      | none => .error .notEnabled
      | some (snippetId, snippetInfo) =>
          let s := { s with requested := s.requested.eraseIdx k }
          if added then
            .ok { s with
              running := s.running ++ [snippetId]
              given := s.given ++ [(snippetId, snippetInfo)] }
          else .ok s
  | .endRun k result updated =>
      match s.running[k]? with
      | none => .error .notEnabled
      | some snippetId =>
          let s := { s with running := s.running.eraseIdx k }
          match result with
          | none => .ok s
          | some result =>
              if result.status.toHealth ≠ .unknown ∧ updated = true then
                .ok { s with
                  table := SnippetDataRepository.updateStatus sqlEquals s.table snippetId
                    result.status.toHealth
                  events := s.events ++ [.stored snippetId result.status.toHealth] }
              else .ok s

end SnippetSite

/-- The health that was stored last for a snippet. -/
def lastHealth (events : List StoreEvent) (id : Guid) : SnippetHealth :=
  ((events.filterMap fun
    | .stored other health => if other = id then some health else none
    | _ => none).getLast?).getD .unknown

/-- The columns are those of a form, with the assembly it was compiled and patched to. -/
def SubmittedAs (tc : Toolchain) (columns : SnippetColumns) (form : SnippetForm) : Prop :=
  HomeController.patchedAssembly tc form = .ok columns.assemblyBytes ∧
    columns.snippetSource = form.snippetMain ∧
    columns.usingDirectives = form.usingDirectives ∧
    columns.snippetClasses = form.snippetClasses ∧
    columns.compilerVersion = form.compilerVersion

theorem savedIds_concat (events : List StoreEvent) (event : StoreEvent) :
    savedIds (events ++ [event]) = savedIds events ++ savedIds [event] :=
  List.filterMap_append

theorem mem_savedIds {events : List StoreEvent} {id : Guid} :
    id ∈ savedIds events ↔ ∃ columns, StoreEvent.saved id columns ∈ events := by
  rw [savedIds, List.mem_filterMap]
  constructor
  · rintro ⟨event, member, same⟩
    cases event with
    | saved other columns =>
        cases same
        exact ⟨columns, member⟩
    | stored other health => cases same
    | deleted text => cases same
  · rintro ⟨columns, member⟩
    exact ⟨.saved id columns, member, rfl⟩

/-- A snippet that was saved stays saved. -/
theorem mem_savedIds_concat {events : List StoreEvent} {id : Guid} (event : StoreEvent)
    (member : id ∈ savedIds events) : id ∈ savedIds (events ++ [event]) := by
  rw [savedIds_concat]
  exact List.mem_append_left _ member

/-- An event that saves nothing saves no id. -/
theorem savedIds_of_ne {events : List StoreEvent} {event : StoreEvent}
    (other : ∀ id columns, event ≠ .saved id columns) :
    savedIds (events ++ [event]) = savedIds events := by
  rw [savedIds_concat]
  cases event with
  | saved id columns => exact absurd rfl (other id columns)
  | stored id health => exact List.append_nil _
  | deleted text => exact List.append_nil _

theorem lastHealth_concat (events : List StoreEvent) (event : StoreEvent) (id : Guid) :
    lastHealth (events ++ [event]) id =
      match event with
      | .stored other health => if other = id then health else lastHealth events id
      | _ => lastHealth events id := by
  rw [lastHealth, List.filterMap_append]
  cases event with
  | saved other columns => simp [lastHealth]
  | stored other health =>
      by_cases same : other = id
      · simp [same]
      · simp [same, lastHealth]
  | deleted text => simp [lastHealth]

/-- Without a result nothing is known of a snippet. -/
theorem lastHealth_of_unstored {events : List StoreEvent} {id : Guid}
    (unstored : ∀ health, StoreEvent.stored id health ∉ events) :
    lastHealth events id = .unknown := by
  have none_stored : (events.filterMap fun
      | .stored other health => if other = id then some health else none
      | _ => none) = [] := by
    apply List.filterMap_eq_nil_iff.mpr
    intro event member
    cases event with
    | saved other columns => rfl
    | stored other health =>
        apply if_neg
        rintro rfl
        exact unstored health member
    | deleted text => rfl
  rw [lastHealth, none_stored]
  rfl

/-- The entries with the id. -/
def under (id : Guid) (snippets : List (Guid × SubmittedSnippet)) :
    List (Guid × SubmittedSnippet) :=
  snippets.filter fun entry => entry.1 = id

/-- From `s` to `t` nothing was read under the id, and the pool was given nothing under it
but what had been read in `s`, each once. -/
def GivesOnlyRequested (id : Guid) (s t : SnippetSite) : Prop :=
  ∃ late, under id t.given = under id s.given ++ late ∧
    (late ++ under id t.requested).Subperm (under id s.requested)

namespace GivesOnlyRequested

variable {id : Guid} {s t next : SnippetSite}

theorem refl (id : Guid) (s : SnippetSite) : GivesOnlyRequested id s s :=
  ⟨[], (List.append_nil _).symm, .refl _⟩

theorem trans (before : GivesOnlyRequested id s t) (after : GivesOnlyRequested id t next) :
    GivesOnlyRequested id s next := by
  obtain ⟨first, givenFirst, leftFirst⟩ := before
  obtain ⟨second, givenSecond, leftSecond⟩ := after
  refine ⟨first ++ second, by rw [givenSecond, givenFirst, List.append_assoc], ?_⟩
  rw [List.append_assoc]
  exact ((List.subperm_append_left first).mpr leftSecond).trans leftFirst

/-- Nothing is given, and some of what was read may be dropped. -/
theorem of_sublist (fewer : next.requested.Sublist s.requested) (same : next.given = s.given) :
    GivesOnlyRequested id s next :=
  ⟨[], by rw [same, List.append_nil], (fewer.filter _).subperm⟩

/-- An entry that was read is given. -/
theorem of_given {entry : Guid × SubmittedSnippet}
    (moved : s.requested.Perm (entry :: next.requested)) (given : next.given = s.given ++ [entry]) :
    GivesOnlyRequested id s next := by
  refine ⟨under id [entry], by rw [given, under, List.filter_append]; rfl, ?_⟩
  rw [under, under, ← List.filter_append, List.singleton_append]
  exact (moved.symm.filter _).subperm

/-- Where nothing was read and is still to be given, nothing is given. -/
theorem given_eq (h : GivesOnlyRequested id s t) (nothing : under id s.requested = []) :
    under id t.given = under id s.given := by
  obtain ⟨late, given, left⟩ := h
  rw [nothing, List.subperm_nil, List.append_eq_nil_iff] at left
  rw [given, left.1, List.append_nil]

end GivesOnlyRequested

/-- What one action does. -/
inductive SiteEffect (tc : Toolchain) (sqlEquals : List CodeUnit → List CodeUnit → Bool)
    (s next : SnippetSite) : Prop where
  | rests (table : next.table = s.table) (events : next.events = s.events)
      (requested : next.requested.Sublist s.requested)
      (given : next.given = s.given) (running : next.running ⊆ s.running)
      (answered : next.statuses.count 204 = s.statuses.count 204)
  | saves (form : SnippetForm) (id : Guid) (patched : List UInt8)
      (compiled : HomeController.patchedAssembly tc form = .ok patched)
      (fresh : id ∉ savedIds s.events)
      (table : next.table = SnippetDataRepository.save s.table id form.usingDirectives
        form.snippetClasses form.snippetMain patched form.compilerVersion)
      (events : next.events = s.events ++ [.saved id (SnippetDataRepository.newColumns
        form.usingDirectives form.snippetClasses form.snippetMain patched form.compilerVersion)])
      (requested : next.requested = s.requested)
      (given : next.given = s.given) (running : next.running = s.running)
      (answered : next.statuses.count 204 = s.statuses.count 204 + 1)
  | deletes (text : List CodeUnit)
      (table : next.table = SnippetDataRepository.delete sqlEquals s.table text)
      (events : next.events = s.events ++ [.deleted text])
      (requested : next.requested = s.requested)
      (given : next.given = s.given) (running : next.running = s.running)
      (answered : next.statuses = s.statuses)
  | gets (id : Guid) (snippetData : StoredSnippet) (snippet : SubmittedSnippet)
      (read : SnippetDataRepository.get sqlEquals s.table id = .ok (some snippetData))
      (assembly : snippet.assemblyFile = snippetData.assemblyBytes)
      (entry : snippet.mainTypeName = SnippetData.snippetTypeName ∧
        snippet.methodName = SnippetData.snippetMethodName)
      (table : next.table = s.table) (events : next.events = s.events)
      (requested : next.requested = s.requested ++ [(id, snippet)])
      (given : next.given = s.given) (running : next.running = s.running)
      (answered : next.statuses = s.statuses)
  | gives (id : Guid) (snippet : SubmittedSnippet)
      (table : next.table = s.table) (events : next.events = s.events)
      (requested : s.requested.Perm ((id, snippet) :: next.requested))
      (given : next.given = s.given ++ [(id, snippet)])
      (running : next.running = s.running ++ [id]) (answered : next.statuses = s.statuses)
  | stores (id : Guid) (health : SnippetHealth) (began : id ∈ s.running)
      (known : health ≠ .unknown)
      (table : next.table = SnippetDataRepository.updateStatus sqlEquals s.table id health)
      (events : next.events = s.events ++ [.stored id health])
      (requested : next.requested = s.requested)
      (given : next.given = s.given) (running : next.running ⊆ s.running)
      (answered : next.statuses = s.statuses)

theorem HomeController.patchedAssembly_error {tc : Toolchain} {form : SnippetForm} {status : Nat}
    (failed : HomeController.patchedAssembly tc form = .error status) : status ≠ 204 := by
  unfold HomeController.patchedAssembly at failed
  split at failed
  · cases failed
    decide
  · cases failed
    decide
  · split at failed
    · cases failed
      decide
    · cases failed

theorem toColor_value_ne (health : SnippetHealth) : toColor health.value ≠ "aliceblue" := by
  cases health <;> decide

namespace SnippetSite

variable {tc : Toolchain} {f : Formats} {sqlEquals : List CodeUnit → List CodeUnit → Bool}
  {s next : SnippetSite}

theorem step_effect {action : SiteAction} (h : step tc f sqlEquals s action = .ok next) :
    SiteEffect tc sqlEquals s next := by
  cases action with
  | submitSnippet form newGuid inserted =>
      simp only [step] at h
      split at h
      next status failed =>
        cases h
        have other := HomeController.patchedAssembly_error failed
        exact .rests rfl rfl (.refl _) rfl (List.Subset.refl _) (by simp [other])
      next patched compiled =>
        split at h
        next => cases h
        next fresh =>
          split at h
          next =>
            cases h
            exact .saves form newGuid patched compiled fresh rfl rfl rfl rfl rfl (by simp)
          next =>
            cases h
            exact .rests rfl rfl (.refl _) rfl (List.Subset.refl _) (by simp)
  | deleteSnippet snippetId deleted =>
      simp only [step] at h
      split at h
      next =>
        cases h
        exact .deletes snippetId rfl rfl rfl rfl rfl rfl
      next =>
        cases h
        exact .rests rfl rfl (.refl _) rfl (List.Subset.refl _) rfl
  | getSnippet command submissionId =>
      have same : SiteEffect tc sqlEquals s s :=
        .rests rfl rfl (.refl _) rfl (List.Subset.refl _) rfl
      simp only [step] at h
      split at h
      next =>
        cases h
        exact same
      next =>
        split at h
        next =>
          cases h
          exact same
        next snippetId parsed =>
          split at h
          next =>
            cases h
            exact same
          next =>
            cases h
            exact same
          next snippetData read =>
            cases h
            exact .gets snippetId snippetData _ read rfl ⟨rfl, rfl⟩ rfl rfl rfl rfl rfl rfl
  | beginRun k added =>
      simp only [step] at h
      split at h
      next => cases h
      next snippetId snippetInfo there =>
        obtain ⟨bound, same⟩ := List.getElem?_eq_some_iff.mp there
        have moved : s.requested.Perm ((snippetId, snippetInfo) :: s.requested.eraseIdx k) :=
          same ▸ (List.getElem_cons_eraseIdx_perm bound).symm
        split at h
        next =>
          cases h
          exact .gives snippetId snippetInfo rfl rfl moved rfl rfl rfl
        next =>
          cases h
          exact .rests rfl rfl (List.eraseIdx_sublist s.requested k) rfl (List.Subset.refl _) rfl
  | endRun k result updated =>
      simp only [step] at h
      split at h
      next => cases h
      next snippetId begun =>
        have fewer : s.running.eraseIdx k ⊆ s.running :=
          (List.eraseIdx_sublist s.running k).subset
        split at h
        next =>
          cases h
          exact .rests rfl rfl (.refl _) rfl fewer rfl
        next result =>
          split at h
          next stored =>
            cases h
            exact .stores snippetId result.status.toHealth (List.mem_of_getElem? begun) stored.1 rfl
              rfl rfl rfl fewer rfl
          next =>
            cases h
            exact .rests rfl rfl (.refl _) rfl fewer rfl

/-- The columns of a live snippet: those it was saved with, and its last health. -/
def Archived (events : List StoreEvent) (id : Guid) (columns : SnippetColumns) : Prop :=
  ∃ saved, StoreEvent.saved id saved ∈ events ∧
    columns = { saved with snippetHealth := (lastHealth events id).value }

/-- What has happened to the table fits together. -/
structure StoreHistory (tc : Toolchain) (sqlEquals : List CodeUnit → List CodeUnit → Bool)
    (events : List StoreEvent) : Prop where
  archived : ∀ id columns, archiveOf sqlEquals events id = some columns →
    Archived events id columns
  distinct : (savedIds events).Nodup
  submitted : ∀ id columns, StoreEvent.saved id columns ∈ events → ∃ form,
    SubmittedAs tc columns form ∧ columns.snippetHealth = SnippetHealth.unknown.value
  stored : ∀ id health, StoreEvent.stored id health ∈ events →
    id ∈ savedIds events ∧ health ≠ .unknown

theorem storeHistory_nil : StoreHistory tc sqlEquals [] where
  archived := by
    intro id columns live
    cases live
  distinct := List.nodup_nil
  submitted := by
    intro id columns member
    cases member
  stored := by
    intro id health member
    cases member

namespace StoreHistory

variable {events : List StoreEvent}

/-- A snippet of the archive was saved. -/
theorem mem_savedIds (h : StoreHistory tc sqlEquals events) {id : Guid} {columns : SnippetColumns}
    (live : archiveOf sqlEquals events id = some columns) : id ∈ savedIds events := by
  obtain ⟨saved, member, -⟩ := h.archived id columns live
  exact HostedPumpkin.mem_savedIds.mpr ⟨saved, member⟩

theorem archive_of_fresh (h : StoreHistory tc sqlEquals events) {id : Guid}
    (fresh : id ∉ savedIds events) : archiveOf sqlEquals events id = none := by
  cases live : archiveOf sqlEquals events id with
  | none => rfl
  | some columns => exact absurd (h.mem_savedIds live) fresh

theorem saved (h : StoreHistory tc sqlEquals events) {form : SnippetForm} {id : Guid}
    {patched : List UInt8} (compiled : HomeController.patchedAssembly tc form = .ok patched)
    (fresh : id ∉ savedIds events) :
    StoreHistory tc sqlEquals (events ++ [.saved id (SnippetDataRepository.newColumns
      form.usingDirectives form.snippetClasses form.snippetMain patched
      form.compilerVersion)]) where
  archived := by
    intro other columns live
    simp only [archiveOf_concat, Archive.after] at live
    by_cases same : other = id
    · rw [if_pos same] at live
      cases live
      have unstored : ∀ health, StoreEvent.stored other health ∉ events := by
        intro health member
        exact fresh (same ▸ (h.stored other health member).1)
      subst same
      refine ⟨_, List.mem_append_right events (List.mem_singleton_self _), ?_⟩
      rw [lastHealth_concat, lastHealth_of_unstored unstored]
      rfl
    · rw [if_neg same] at live
      obtain ⟨saved, member, rfl⟩ := h.archived other columns live
      exact ⟨saved, List.mem_append_left _ member, by rw [lastHealth_concat]⟩
  distinct := by
    rw [savedIds_concat]
    exact List.nodup_append.mpr ⟨h.distinct, List.nodup_singleton id, by
      intro other member another single same
      exact fresh (List.mem_singleton.mp single ▸ same ▸ member)⟩
  submitted := by
    intro other columns member
    rcases List.mem_append.mp member with member | single
    · exact h.submitted other columns member
    · cases List.mem_singleton.mp single
      exact ⟨form, ⟨compiled, rfl, rfl, rfl, rfl⟩, rfl⟩
  stored := by
    intro other health member
    rcases List.mem_append.mp member with member | single
    · obtain ⟨saved, known⟩ := h.stored other health member
      exact ⟨mem_savedIds_concat _ saved, known⟩
    · cases List.mem_singleton.mp single

theorem deleted (h : StoreHistory tc sqlEquals events) (text : List CodeUnit) :
    StoreHistory tc sqlEquals (events ++ [.deleted text]) where
  archived := by
    intro id columns live
    simp only [archiveOf_concat, Archive.after] at live
    split at live
    · cases live
    · obtain ⟨saved, member, rfl⟩ := h.archived id columns live
      exact ⟨saved, List.mem_append_left _ member, by rw [lastHealth_concat]⟩
  distinct := by
    rw [savedIds_of_ne (by intro id columns same; cases same)]
    exact h.distinct
  submitted := by
    intro id columns member
    rcases List.mem_append.mp member with member | single
    · exact h.submitted id columns member
    · cases List.mem_singleton.mp single
  stored := by
    intro id health member
    rcases List.mem_append.mp member with member | single
    · obtain ⟨saved, known⟩ := h.stored id health member
      exact ⟨mem_savedIds_concat _ saved, known⟩
    · cases List.mem_singleton.mp single

theorem healthStored (h : StoreHistory tc sqlEquals events) {id : Guid} {health : SnippetHealth}
    (began : id ∈ savedIds events) (known : health ≠ .unknown) :
    StoreHistory tc sqlEquals (events ++ [.stored id health]) where
  archived := by
    intro other columns live
    simp only [archiveOf_concat, Archive.after] at live
    by_cases same : other = id
    · rw [if_pos same] at live
      obtain ⟨before, there, rfl⟩ := Option.map_eq_some_iff.mp live
      obtain ⟨saved, member, rfl⟩ := h.archived id before there
      refine ⟨saved, List.mem_append_left _ (same ▸ member), ?_⟩
      simp only [lastHealth_concat, if_pos same.symm]
    · rw [if_neg same] at live
      obtain ⟨saved, member, rfl⟩ := h.archived other columns live
      refine ⟨saved, List.mem_append_left _ member, ?_⟩
      simp only [lastHealth_concat, if_neg (Ne.symm same)]
  distinct := by
    rw [savedIds_of_ne (by intro id columns same; cases same)]
    exact h.distinct
  submitted := by
    intro other columns member
    rcases List.mem_append.mp member with member | single
    · exact h.submitted other columns member
    · cases List.mem_singleton.mp single
  stored := by
    intro other value member
    rcases List.mem_append.mp member with member | single
    · obtain ⟨saved, known⟩ := h.stored other value member
      exact ⟨mem_savedIds_concat _ saved, known⟩
    · cases List.mem_singleton.mp single
      exact ⟨mem_savedIds_concat _ began, known⟩

end StoreHistory

/-- What the pool gets to run is the assembly that was saved under the id. -/
def ComesFrom (events : List StoreEvent) (id : Guid) (snippet : SubmittedSnippet) : Prop :=
  (snippet.mainTypeName = SnippetData.snippetTypeName ∧
    snippet.methodName = SnippetData.snippetMethodName) ∧
  ∃ columns, StoreEvent.saved id columns ∈ events ∧
    snippet.assemblyFile = columns.assemblyBytes

theorem ComesFrom.concat {events : List StoreEvent} {id : Guid} {snippet : SubmittedSnippet}
    (h : ComesFrom events id snippet) (event : StoreEvent) :
    ComesFrom (events ++ [event]) id snippet := by
  obtain ⟨entry, columns, saved, assembly⟩ := h
  exact ⟨entry, columns, List.mem_append_left _ saved, assembly⟩

/-- It was saved under the id. -/
theorem ComesFrom.mem_savedIds {events : List StoreEvent} {id : Guid}
    {snippet : SubmittedSnippet} (h : ComesFrom events id snippet) : id ∈ savedIds events := by
  obtain ⟨-, columns, saved, -⟩ := h
  exact HostedPumpkin.mem_savedIds.mpr ⟨columns, saved⟩

structure SiteInvariant (tc : Toolchain) (sqlEquals : List CodeUnit → List CodeUnit → Bool)
    (s : SnippetSite) : Prop where
  table : Represents s.table (archiveOf sqlEquals s.events)
  history : StoreHistory tc sqlEquals s.events
  running : ∀ id ∈ s.running, id ∈ savedIds s.events
  requested : ∀ id snippet, (id, snippet) ∈ s.requested → ComesFrom s.events id snippet
  given : ∀ id snippet, (id, snippet) ∈ s.given → ComesFrom s.events id snippet
  answered : s.statuses.count 204 = (savedIds s.events).length

theorem siteInvariant_initial : SiteInvariant tc sqlEquals initial where
  table := represents_initial
  history := storeHistory_nil
  running := by
    intro id member
    cases member
  requested := by
    intro id snippet member
    cases member
  given := by
    intro id snippet member
    cases member
  answered := rfl

theorem readColumns_fields {id : Guid} {columns : SnippetColumns} {snippet : StoredSnippet}
    (read : SnippetDataRepository.readColumns id columns = .ok snippet) :
    snippet.assemblyBytes = columns.assemblyBytes ∧
      columns.snippetSource = some snippet.snippetSource ∧
      columns.usingDirectives = some snippet.usingDirectives ∧
      snippet.snippetHealth = columns.snippetHealth ∧
      snippet.compilerVersion = columns.compilerVersion.getD "" ∧
      snippet.snippetClasses = columns.snippetClasses.getD "" := by
  unfold SnippetDataRepository.readColumns at read
  split at read
  next source usings sourceRead usingsRead =>
    cases read
    exact ⟨rfl, sourceRead, usingsRead, rfl, rfl, rfl⟩
  next => cases read

/-- An effect forgets no snippet that was saved. -/
theorem savedIds_of_effect (effect : SiteEffect tc sqlEquals s next) {id : Guid}
    (saved : id ∈ savedIds s.events) : id ∈ savedIds next.events := by
  cases effect with
  | rests _ events | gets _ _ _ _ _ _ _ events | gives _ _ _ events =>
      rw [events]
      exact saved
  | saves _ _ _ _ _ _ events | deletes _ _ events | stores _ _ _ _ _ events =>
      rw [events]
      exact mem_savedIds_concat _ saved

section Step

variable (equals : ∀ first second,
  sqlEquals (guidText first) (guidText second) = true ↔ first = second)

include equals in
/-- What `Get` reads is a snippet of the archive. -/
theorem get_archived {table : List SnippetRow} {archive : Archive} (h : Represents table archive)
    {id : Guid} {snippetData : StoredSnippet}
    (read : SnippetDataRepository.get sqlEquals table id = .ok (some snippetData)) :
    ∃ columns, archive id = some columns ∧
      SnippetDataRepository.readColumns id columns = .ok snippetData := by
  rw [h.get equals] at read
  cases live : archive id with
  | none =>
      rw [live] at read
      cases read
  | some columns =>
      simp only [live] at read
      cases columnsRead : SnippetDataRepository.readColumns id columns with
      | error fault =>
          rw [columnsRead] at read
          cases read
      | ok found =>
          rw [columnsRead] at read
          cases read
          exact ⟨columns, rfl, columnsRead⟩

include equals in
theorem SiteInvariant.effect (h : SiteInvariant tc sqlEquals s)
    (effect : SiteEffect tc sqlEquals s next) : SiteInvariant tc sqlEquals next := by
  cases effect with
  | rests sameTable sameEvents fewerRequests sameGiven fewer sameAnswers =>
      constructor
      · rw [sameTable, sameEvents]
        exact h.table
      · rw [sameEvents]
        exact h.history
      · intro id member
        rw [sameEvents]
        exact h.running id (fewer member)
      · intro id snippet member
        rw [sameEvents]
        exact h.requested id snippet (fewerRequests.subset member)
      · rw [sameEvents, sameGiven]
        exact h.given
      · rw [sameAnswers, sameEvents]
        exact h.answered
  | saves form id patched compiled fresh newTable newEvents sameRequests sameGiven sameRunning
      oneMore =>
      constructor
      · rw [newTable, newEvents, archiveOf_concat]
        exact h.table.save (h.history.archive_of_fresh fresh) _ _ _ _ _
      · rw [newEvents]
        exact h.history.saved compiled fresh
      · rw [newEvents, sameRunning]
        intro other member
        exact mem_savedIds_concat _ (h.running other member)
      · rw [newEvents, sameRequests]
        exact fun other snippet member => (h.requested other snippet member).concat _
      · rw [newEvents, sameGiven]
        exact fun other snippet member => (h.given other snippet member).concat _
      · rw [oneMore, newEvents, savedIds_concat, List.length_append, h.answered]
        rfl
  | deletes text newTable newEvents sameRequests sameGiven sameRunning sameAnswers =>
      have sameSaved : savedIds next.events = savedIds s.events := by
        rw [newEvents]
        exact savedIds_of_ne (by intro id columns same; cases same)
      constructor
      · rw [newTable, newEvents, archiveOf_concat]
        exact h.table.delete text
      · rw [newEvents]
        exact h.history.deleted text
      · rw [sameSaved, sameRunning]
        exact h.running
      · rw [newEvents, sameRequests]
        exact fun other snippet member => (h.requested other snippet member).concat _
      · rw [newEvents, sameGiven]
        exact fun other snippet member => (h.given other snippet member).concat _
      · rw [sameSaved, sameAnswers]
        exact h.answered
  | gets id snippetData snippet read assembly entry sameTable sameEvents newRequests sameGiven
      sameRunning sameAnswers =>
      obtain ⟨columns, live, columnsRead⟩ := get_archived equals h.table read
      constructor
      · rw [sameTable, sameEvents]
        exact h.table
      · rw [sameEvents]
        exact h.history
      · rw [sameRunning, sameEvents]
        exact h.running
      · intro other submitted member
        rw [newRequests, List.mem_append, List.mem_singleton] at member
        rw [sameEvents]
        rcases member with member | same
        · exact h.requested other submitted member
        · cases same
          obtain ⟨saved, savedBefore, rfl⟩ := h.history.archived id columns live
          have bytes := (readColumns_fields columnsRead).1
          exact ⟨entry, saved, savedBefore, assembly.trans bytes⟩
      · rw [sameEvents, sameGiven]
        exact h.given
      · rw [sameAnswers, sameEvents]
        exact h.answered
  | gives id snippet sameTable sameEvents moved newGiven newRunning sameAnswers =>
      have origin : ComesFrom s.events id snippet :=
        h.requested id snippet (moved.mem_iff.mpr List.mem_cons_self)
      constructor
      · rw [sameTable, sameEvents]
        exact h.table
      · rw [sameEvents]
        exact h.history
      · intro other member
        rw [newRunning, List.mem_append, List.mem_singleton] at member
        rw [sameEvents]
        rcases member with member | rfl
        · exact h.running other member
        · exact origin.mem_savedIds
      · intro other submitted member
        rw [sameEvents]
        exact h.requested other submitted (moved.mem_iff.mpr (List.mem_cons_of_mem _ member))
      · intro other submitted member
        rw [newGiven, List.mem_append, List.mem_singleton] at member
        rw [sameEvents]
        rcases member with member | same
        · exact h.given other submitted member
        · cases same
          exact origin
      · rw [sameAnswers, sameEvents]
        exact h.answered
  | stores id health began known newTable newEvents sameRequests sameGiven fewer sameAnswers =>
      have sameSaved : savedIds next.events = savedIds s.events := by
        rw [newEvents]
        exact savedIds_of_ne (by intro id columns same; cases same)
      constructor
      · rw [newTable, newEvents, archiveOf_concat]
        exact h.table.updateStatus equals id health
      · rw [newEvents]
        exact h.history.healthStored (h.running id began) known
      · rw [sameSaved]
        intro other member
        exact h.running other (fewer member)
      · rw [newEvents, sameRequests]
        exact fun other snippet member => (h.requested other snippet member).concat _
      · rw [newEvents, sameGiven]
        exact fun other snippet member => (h.given other snippet member).concat _
      · rw [sameSaved, sameAnswers]
        exact h.answered

include equals in
theorem siteInvariant_always (actions : List SiteAction) :
    Always (step tc f sqlEquals) (SiteInvariant tc sqlEquals) initial actions :=
  always_of_step (fun _ _ _ h taken => h.effect equals (step_effect taken)) siteInvariant_initial
    actions

include equals in
/-- A deleted snippet is gone: it is not found again, and what the pool is given under its
id was read before. -/
theorem gone_of_effect (h : SiteInvariant tc sqlEquals s)
    (effect : SiteEffect tc sqlEquals s next) {id : Guid} (saved : id ∈ savedIds s.events)
    (gone : archiveOf sqlEquals s.events id = none) :
    archiveOf sqlEquals next.events id = none ∧ GivesOnlyRequested id s next := by
  cases effect with
  | rests sameTable sameEvents fewerRequests sameGiven fewer sameAnswers =>
      exact ⟨sameEvents ▸ gone, .of_sublist fewerRequests sameGiven⟩
  | saves form other patched compiled fresh newTable newEvents sameRequests sameGiven sameRunning
      oneMore =>
      have differs : id ≠ other := by
        rintro rfl
        exact fresh saved
      refine ⟨?_, .of_sublist (sameRequests ▸ .refl _) sameGiven⟩
      simp only [newEvents, archiveOf_concat, Archive.after, if_neg differs, gone]
  | deletes text newTable newEvents sameRequests sameGiven sameRunning sameAnswers =>
      refine ⟨?_, .of_sublist (sameRequests ▸ .refl _) sameGiven⟩
      simp only [newEvents, archiveOf_concat, Archive.after, gone, ite_self]
  | gets other snippetData snippet read assembly entry sameTable sameEvents newRequests sameGiven
      sameRunning sameAnswers =>
      obtain ⟨columns, live, -⟩ := get_archived equals h.table read
      have differs : other ≠ id := by
        rintro rfl
        rw [gone] at live
        cases live
      refine ⟨sameEvents ▸ gone, [], by rw [sameGiven, List.append_nil], ?_⟩
      have others : under id next.requested = under id s.requested := by
        simp [newRequests, under, differs]
      rw [List.nil_append, others]
  | gives other snippet sameTable sameEvents moved newGiven newRunning sameAnswers =>
      exact ⟨sameEvents ▸ gone, .of_given moved newGiven⟩
  | stores other health began known newTable newEvents sameRequests sameGiven fewer sameAnswers =>
      refine ⟨?_, .of_sublist (sameRequests ▸ .refl _) sameGiven⟩
      by_cases same : id = other
      · subst same
        simp only [newEvents, archiveOf_concat, Archive.after, gone, Option.map_none, ite_self]
      · simp only [newEvents, archiveOf_concat, Archive.after, if_neg same, gone]

include equals in
/-- In every run the table is the archive: `Get` answers from it, and `All` returns each
of its snippets once, or fails where one of them has no source or no using directives. -/
theorem site_table (parses : ∀ id, f.parseGuid (guidText id) = some id)
    (actions : List SiteAction) :
    Always (step tc f sqlEquals) (fun s =>
      (∀ id, SnippetDataRepository.get sqlEquals s.table id =
        match archiveOf sqlEquals s.events id with
        | none => .ok none
        | some columns => (SnippetDataRepository.readColumns id columns).map some) ∧
      (∀ snippets, SnippetDataRepository.all f s.table = .ok snippets →
        (snippets.map StoredSnippet.id).Nodup ∧ ∀ snippet, snippet ∈ snippets ↔
          ∃ columns, archiveOf sqlEquals s.events snippet.id = some columns ∧
            SnippetDataRepository.readColumns snippet.id columns = .ok snippet) ∧
      ((∃ fault, SnippetDataRepository.all f s.table = .error fault) ↔
        ∃ id columns, archiveOf sqlEquals s.events id = some columns ∧
          (columns.snippetSource = none ∨ columns.usingDirectives = none))) initial actions := by
  apply (siteInvariant_always equals actions).imp
  intro s h
  exact ⟨h.table.get equals, h.table.all parses⟩

/-- Where the snippets come from that the pool is given and that are listed, and with
which health. -/
structure Provenance (tc : Toolchain) (sqlEquals : List CodeUnit → List CodeUnit → Bool)
    (s : SnippetSite) : Prop where
  given : ∀ id snippet, (id, snippet) ∈ s.given →
    (snippet.mainTypeName = SnippetData.snippetTypeName ∧
      snippet.methodName = SnippetData.snippetMethodName) ∧
    ∃ columns form, StoreEvent.saved id columns ∈ s.events ∧ SubmittedAs tc columns form ∧
      HomeController.patchedAssembly tc form = .ok snippet.assemblyFile
  read : ∀ id snippetData,
    SnippetDataRepository.get sqlEquals s.table id = .ok (some snippetData) →
    (∃ form, HomeController.patchedAssembly tc form = .ok snippetData.assemblyBytes ∧
      form.snippetMain = some snippetData.snippetSource ∧
      form.usingDirectives = some snippetData.usingDirectives ∧
      form.compilerVersion.getD "" = snippetData.compilerVersion ∧
      form.snippetClasses.getD "" = snippetData.snippetClasses) ∧
    snippetData.snippetHealth = (lastHealth s.events id).value ∧
    toColor snippetData.snippetHealth ≠ "aliceblue"
  answered : s.statuses.count 204 = (savedIds s.events).length

include equals in
/-- In every run the pool is given nothing but assemblies that were compiled from a form
and patched, under the id they were saved with. -/
theorem site_provenance (actions : List SiteAction) :
    Always (step tc f sqlEquals) (Provenance tc sqlEquals) initial actions := by
  apply (siteInvariant_always equals actions).imp
  intro s h
  constructor
  · intro id snippet member
    obtain ⟨entry, columns, saved, assembly⟩ := h.given id snippet member
    obtain ⟨form, submitted, -⟩ := h.history.submitted id columns saved
    exact ⟨entry, columns, form, saved, submitted, assembly ▸ submitted.1⟩
  · intro id snippetData read
    obtain ⟨columns, live, columnsRead⟩ := get_archived equals h.table read
    obtain ⟨saved, member, rfl⟩ := h.history.archived id columns live
    obtain ⟨form, submitted, -⟩ := h.history.submitted id saved member
    obtain ⟨assembly, source, usings, classes, version⟩ := submitted
    obtain ⟨bytes, mainRead, usingsRead, healthRead, versionRead, classesRead⟩ :=
      readColumns_fields columnsRead
    refine ⟨⟨form, ?_, ?_, ?_, ?_, ?_⟩, healthRead, ?_⟩
    · rw [bytes]
      exact assembly
    · rw [← source]
      exact mainRead
    · rw [← usings]
      exact usingsRead
    · rw [← version]
      exact versionRead.symm
    · rw [← classes]
      exact classesRead.symm
    · rw [healthRead]
      exact toColor_value_ne _
  · exact h.answered

include equals in
/-- A snippet that is gone in a state stays gone in every run from there. Only what had been
read of it is still given to the pool. -/
theorem deleted_never_given {before rest : List SiteAction}
    (reached : run (step tc f sqlEquals) initial before = .ok s) {id : Guid}
    (saved : id ∈ savedIds s.events)
    (gone : SnippetDataRepository.get sqlEquals s.table id = .ok none) :
    Always (step tc f sqlEquals) (fun t =>
      SnippetDataRepository.get sqlEquals t.table id = .ok none ∧
        GivesOnlyRequested id s t ∧
        (under id s.requested = [] → under id t.given = under id s.given)) s rest := by
  have start := (siteInvariant_always equals before).last reached
  have absent : archiveOf sqlEquals s.events id = none := by
    rw [start.table.get equals] at gone
    cases live : archiveOf sqlEquals s.events id with
    | none => rfl
    | some columns =>
        simp only [live] at gone
        cases read : SnippetDataRepository.readColumns id columns <;>
          (rw [read] at gone; cases gone)
  have kept : Always (step tc f sqlEquals) (fun t => SiteInvariant tc sqlEquals t ∧
      id ∈ savedIds t.events ∧ archiveOf sqlEquals t.events id = none ∧
      GivesOnlyRequested id s t) s rest := by
    apply always_of_step
    · rintro t action next ⟨h, savedBefore, goneBefore, gives⟩ taken
      have effect := step_effect taken
      obtain ⟨stillGone, givesNext⟩ := gone_of_effect equals h effect savedBefore goneBefore
      exact ⟨h.effect equals effect, savedIds_of_effect effect savedBefore, stillGone,
        gives.trans givesNext⟩
    · exact ⟨start, saved, absent, .refl id s⟩
  apply kept.imp
  rintro t ⟨h, -, goneBefore, gives⟩
  exact ⟨by rw [h.table.get equals, goneBefore], gives, gives.given_eq⟩

end Step

/-! ### A snippet that is deleted while it runs -/

/-- Texts compared unit by unit. -/
def plainEquals (first second : List CodeUnit) : Bool := decide (first = second)

theorem plainEquals_guidText (first second : Guid) :
    plainEquals (guidText first) (guidText second) = true ↔ first = second := by
  rw [plainEquals, decide_eq_true_iff]
  exact guidText_injective.eq_iff

/-- Every source compiles to a `SnippetMain` that returns. -/
def plainToolchain : Toolchain where
  compileWithCSC _ _ := .success [77, 90]
  readModule _ := some ⟨[.mk "Snippets.SnippetText" []
    [⟨"SnippetMain", [], [], some ⟨[⟨.read 0, .other 42 1⟩], []⟩⟩] []]⟩
  write _ := [77, 90, 1]
  stringHash text := UInt32.ofNat text.length
  importMethod := Monitor.importMethod
  buckets := 3
  monitorType := .mk "Pumpkin.Monitor" [] [Monitor.consoleWriteLine] []
  monitorTypeRef := Monitor.typeRef

def plainStep : SnippetSite → SiteAction → Except SiteFault SnippetSite :=
  step plainToolchain HostConnection.plainFormats plainEquals

/-- The snippet is saved and begins to run; it is asked for a second time, and deleted after
the host has read it. -/
def deletedRun : List SiteAction :=
  [.submitSnippet ⟨some "using System.Linq;", none, some "return;", some "v4.0"⟩
      HostConnection.quickGuid true,
    .getSnippet HostConnection.quickId HostConnection.quickGuid, .beginRun 0 true,
    .getSnippet HostConnection.quickId HostConnection.quickGuid,
    .deleteSnippet HostConnection.quickId true]

/-- The first run ends well, the second begins, and the snippet is asked for again. -/
def askedAgain : List SiteAction :=
  [.endRun 0 (some HostConnection.quickResult) true, .beginRun 0 true,
    .getSnippet HostConnection.quickId HostConnection.quickGuid]

theorem site_table_deleted_run :
    Always plainStep (fun s => ∀ id, SnippetDataRepository.get plainEquals s.table id =
        match archiveOf plainEquals s.events id with
        | none => .ok none
        | some columns => (SnippetDataRepository.readColumns id columns).map some)
      initial (deletedRun ++ askedAgain) ∧
    Reaches plainStep (fun s => s.table = [] ∧ s.events.length = 3) initial
      (deletedRun ++ askedAgain) :=
  ⟨(site_table plainEquals_guidText parseGroups_guidText (deletedRun ++ askedAgain)).imp
    fun _ h => h.1, by decide⟩

theorem site_provenance_deleted_run :
    Always plainStep (Provenance plainToolchain plainEquals) initial (deletedRun ++ askedAgain) ∧
    Reaches plainStep (fun s => s.given.length = 2 ∧ s.statuses = [204]) initial
      (deletedRun ++ askedAgain) :=
  ⟨site_provenance plainEquals_guidText (deletedRun ++ askedAgain), by decide⟩

/-- The second run begins after the deletion. -/
theorem deleted_never_given_asked_again :
    Reaches plainStep (fun s => Always plainStep
        (GivesOnlyRequested HostConnection.quickGuid s) s askedAgain ∧
      Reaches plainStep (fun t => s.given.length = 1 ∧ t.given.length = 2 ∧ t.requested = [])
        s askedAgain)
      initial deletedRun := by
  have deleted : Reaches plainStep (fun s => (HostConnection.quickGuid ∈ savedIds s.events ∧
      s.table = []) ∧ Reaches plainStep (fun t => s.given.length = 1 ∧ t.given.length = 2 ∧
        t.requested = []) s askedAgain) initial deletedRun := by decide
  obtain ⟨s, reached, ⟨saved, empty⟩, later⟩ := reaches_iff.mp deleted
  refine reaches_iff.mpr ⟨s, reached, ?_, later⟩
  have gone :
      SnippetDataRepository.get plainEquals s.table HostConnection.quickGuid = .ok none := by
    rw [empty]
    rfl
  exact (deleted_never_given plainEquals_guidText reached saved gone).imp fun _ h => h.2.1

end SnippetSite

end HostedPumpkin
