import Mathlib.Tactic

/-!
A hash table with a user-defined equality. A key is found by its hash code, its
bucket and then the equality, so the table is only as good as the pair of
functions it is given: an equality that is an equivalence and a hash code that
equal keys share. A comparer carries the proofs of both, and with it a lookup
is a linear search over the entries, whatever the number of buckets.
-/

namespace HostedPumpkin

/-- An equality on keys and a hash code that fits it. -/
structure Comparer (K : Type*) where
  equals : K → K → Bool
  getHashCode : K → Nat
  refl : ∀ a, equals a a = true
  symm : ∀ a b, equals a b = true → equals b a = true
  trans : ∀ a b c, equals a b = true → equals b c = true → equals a c = true
  hash : ∀ a b, equals a b = true → getHashCode a = getHashCode b

/-- The entries of a hash table, youngest first as in the chains of its buckets. -/
structure Dictionary (K V : Type*) where
  buckets : Nat
  entries : List (K × V)

namespace Dictionary

variable {K V : Type*} (comparer : Comparer K)

def empty (buckets : Nat) : Dictionary K V := ⟨buckets, []⟩

/-- The chain of the bucket a hash code selects. -/
def chain (d : Dictionary K V) (hashCode : Nat) : List (K × V) :=
  d.entries.filter
    (fun entry => comparer.getHashCode entry.1 % d.buckets == hashCode % d.buckets)

/-- The walk along a chain, which compares hash codes before it compares keys. -/
def findEntry (d : Dictionary K V) (key : K) : Option (K × V) :=
  (d.chain comparer (comparer.getHashCode key)).find? (fun entry =>
    comparer.getHashCode entry.1 == comparer.getHashCode key && comparer.equals entry.1 key)

def tryGetValue (d : Dictionary K V) (key : K) : Option V :=
  (d.findEntry comparer key).map Prod.snd

/-- `Add`, which fails if the key is there. -/
def add (d : Dictionary K V) (key : K) (value : V) : Option (Dictionary K V) :=
  match d.findEntry comparer key with
  | some _ => none
  | none => some { d with entries := (key, value) :: d.entries }

def addAll (d : Dictionary K V) (pairs : List (K × V)) : Option (Dictionary K V) :=
  pairs.foldlM (fun d pair => d.add comparer pair.1 pair.2) d

/-- A search along a list of pairs by the equality alone. -/
def linearSearch (pairs : List (K × V)) (key : K) : Option V :=
  (pairs.find? (fun entry => comparer.equals entry.1 key)).map Prod.snd

variable {comparer}

/-- Buckets and hash codes hide no entry that is equal to the key. -/
theorem findEntry_eq_find (d : Dictionary K V) (key : K) :
    d.findEntry comparer key =
      d.entries.find? (fun entry => comparer.equals entry.1 key) := by
  rw [findEntry, chain, List.find?_filter]
  congr 1
  funext entry
  cases hequals : comparer.equals entry.1 key with
  | false => simp
  | true => simp [comparer.hash _ _ hequals]

theorem tryGetValue_eq_linearSearch (d : Dictionary K V) (key : K) :
    d.tryGetValue comparer key = linearSearch comparer d.entries key := by
  rw [tryGetValue, findEntry_eq_find, linearSearch]

/-- No two of the pairs have equal keys. -/
def Distinct (comparer : Comparer K) (pairs : List (K × V)) : Prop :=
  pairs.Pairwise (fun a b => comparer.equals a.1 b.1 = false)

/-- Pairs with different keys can be added one after the other. -/
theorem addAll_of_distinct {d : Dictionary K V} {pairs : List (K × V)}
    (h : Distinct comparer (d.entries.reverse ++ pairs)) :
    d.addAll comparer pairs = some { d with entries := pairs.reverse ++ d.entries } := by
  induction pairs generalizing d with
  | nil => rfl
  | cons pair rest ih =>
      have hnone : d.findEntry comparer pair.1 = none := by
        rw [findEntry_eq_find, List.find?_eq_none]
        intro entry hentry
        have hpairs := (List.pairwise_append.mp h).2.2 entry (List.mem_reverse.mpr hentry)
          pair List.mem_cons_self
        simp [hpairs]
      have hadd : d.add comparer pair.1 pair.2 =
          some { d with entries := pair :: d.entries } := by
        simp only [add, hnone]
      have hrest : Distinct comparer ((pair :: d.entries).reverse ++ rest) := by
        simpa using h
      rw [addAll, List.foldlM_cons, hadd]
      simpa [addAll] using ih (d := { d with entries := pair :: d.entries }) hrest

/-- Among pairs with different keys the direction of a search does not matter. -/
theorem linearSearch_reverse {pairs : List (K × V)} (h : Distinct comparer pairs) (key : K) :
    linearSearch comparer pairs.reverse key = linearSearch comparer pairs key := by
  induction pairs with
  | nil => rfl
  | cons pair rest ih =>
      obtain ⟨hpair, hrest⟩ := List.pairwise_cons.mp h
      have hrest' := ih hrest
      simp only [linearSearch, List.reverse_cons, List.find?_append, List.find?_cons] at hrest' ⊢
      cases hequals : comparer.equals pair.1 key with
      | false => simpa [hequals] using hrest'
      | true =>
          -- an equal key further on would be equal to this one
          have hnone : rest.reverse.find? (fun entry => comparer.equals entry.1 key) = none := by
            rw [List.find?_eq_none]
            intro entry hentry hkey
            have hfalse := hpair entry (List.mem_reverse.mp hentry)
            rw [comparer.trans _ _ _ hequals (comparer.symm _ _ hkey)] at hfalse
            cases hfalse
          simp [hnone]

/-- A table filled with pairs of different keys answers like a linear search
over the pairs. -/
theorem tryGetValue_addAll {buckets : Nat} {pairs : List (K × V)} {d : Dictionary K V}
    (h : Distinct comparer pairs) (hd : (empty buckets).addAll comparer pairs = some d)
    (key : K) : d.tryGetValue comparer key = linearSearch comparer pairs key := by
  rw [addAll_of_distinct (by simpa [empty] using h)] at hd
  cases hd
  rw [tryGetValue_eq_linearSearch]
  simpa [empty] using linearSearch_reverse h key

end Dictionary

end HostedPumpkin
