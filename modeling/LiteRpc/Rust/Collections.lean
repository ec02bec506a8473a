import Mathlib.Data.List.Nodup
import Mathlib.Data.List.Perm.Subperm

/-!
# `HashSet` and `HashMap`, as the benches and the fee statistics use them

`std::collections::HashSet` and `HashMap` are modelled by their observable
content: the list of elements, or of key/value entries, with no element and no
key stored twice.  That fact is a field of each structure, so a set holding an
element twice cannot be built, and every operation carries the proof along.

Iteration order is the one thing std leaves open.  An `IterOrder` rearranges the
stored list in any way that yields every element exactly once.  Each place where
the source iterates a hash container takes one as an input, so what is proved
about those places holds for every order the runtime may pick.
-/

namespace LiteRpc

/-- An iteration order of a hash container: std only promises that `iter()`
yields every element once. -/
structure IterOrder (α : Type) where
  /-- The order in which `iter()` yields a container whose content is `l`. -/
  arrange : List α → List α
  perm : ∀ l, (arrange l).Perm l

/-- The order in which the model happens to store the elements. -/
def IterOrder.stored (α : Type) : IterOrder α := ⟨id, fun _ => List.Perm.refl _⟩

/-- `std::collections::HashSet`. -/
structure HashSet (α : Type) where
  elems : List α
  nodup : elems.Nodup

namespace HashSet

variable {α : Type}

/-- `HashSet::new()`. -/
def new : HashSet α := ⟨[], List.nodup_nil⟩

/-- `HashSet::len`. -/
def len (s : HashSet α) : Nat := s.elems.length

/-- `HashSet::is_empty`. -/
def isEmpty (s : HashSet α) : Bool := s.elems.isEmpty

@[simp] theorem elems_new : (new : HashSet α).elems = [] := rfl

theorem isEmpty_iff {s : HashSet α} : s.isEmpty = true ↔ s.elems = [] := List.isEmpty_iff

variable [DecidableEq α]

/-- `HashSet::insert`: an element already present is left alone. -/
def insert (s : HashSet α) (a : α) : HashSet α := ⟨s.elems.insert a, s.nodup.insert⟩

/-- `HashSet::remove`. -/
def remove (s : HashSet α) (a : α) : HashSet α := ⟨s.elems.erase a, s.nodup.erase a⟩

@[simp] theorem elems_insert (s : HashSet α) (a : α) : (s.insert a).elems = s.elems.insert a :=
  rfl

@[simp] theorem elems_remove (s : HashSet α) (a : α) : (s.remove a).elems = s.elems.erase a :=
  rfl

theorem mem_remove {s : HashSet α} {a x : α} : x ∈ (s.remove a).elems ↔ x ≠ a ∧ x ∈ s.elems :=
  s.nodup.mem_erase_iff

theorem mem_foldl_insert {l : List α} {acc : HashSet α} {x : α} :
    x ∈ (l.foldl insert acc).elems ↔ x ∈ acc.elems ∨ x ∈ l := by
  induction l generalizing acc with
  | nil => simp
  | cons a l ih => simp only [List.foldl_cons, ih, elems_insert, List.mem_insert_iff,
      List.mem_cons]; tauto

/-- Filling a set from a list that repeats nothing keeps every element. -/
theorem foldl_insert_perm {l : List α} (h : l.Nodup) : (l.foldl insert new).elems.Perm l :=
  (List.perm_ext_iff_of_nodup (l.foldl insert new).nodup h).2 fun _ => by simp [mem_foldl_insert]

/-- Filling a set from a list loses an element exactly when the list repeats one. -/
theorem nodup_of_len_foldl_insert {l : List α} (h : (l.foldl insert new).len = l.length) :
    l.Nodup := by
  have hsub := ((l.foldl insert new).nodup.subperm fun _ hx => by
    simpa [mem_foldl_insert] using hx)
  exact ((hsub.perm_of_length_le (by simp [len] at h; omega)).nodup_iff).1
    (l.foldl insert new).nodup

end HashSet

/-- `std::collections::HashMap`. -/
structure HashMap (κ ν : Type) where
  entries : List (κ × ν)
  nodupKeys : (entries.map Prod.fst).Nodup

namespace HashMap

variable {κ ν : Type}

/-- `HashMap::new()`. -/
def new : HashMap κ ν := ⟨[], List.nodup_nil⟩

/-- The keys of the map, in storage order. -/
def keys (m : HashMap κ ν) : List κ := m.entries.map Prod.fst

/-- `HashMap::len`. -/
def len (m : HashMap κ ν) : Nat := m.entries.length

@[simp] theorem entries_new : (new : HashMap κ ν).entries = [] := rfl

@[simp] theorem len_eq_length_keys (m : HashMap κ ν) : m.len = m.keys.length := by
  simp [len, keys]

theorem mem_keys {m : HashMap κ ν} {k : κ} : k ∈ m.keys ↔ ∃ v, (k, v) ∈ m.entries := by
  simp [keys]

variable [DecidableEq κ]

/-- `HashMap::get`. -/
def get (m : HashMap κ ν) (k : κ) : Option ν := (m.entries.find? (fun e => e.1 = k)).map Prod.snd

/-- `HashMap::contains_key`. -/
def containsKey (m : HashMap κ ν) (k : κ) : Bool := decide (k ∈ m.keys)

theorem nodup_insert (m : HashMap κ ν) (k : κ) (v : ν) :
    (((k, v) :: m.entries.filter (fun e => e.1 ≠ k)).map Prod.fst).Nodup := by
  refine List.nodup_cons.2 ⟨by simp, ?_⟩
  exact ((List.filter_sublist _).map _).nodup m.nodupKeys

/-- `HashMap::insert`: the value it displaces, if any, and the map with `k` bound
to `v`. -/
def insert (m : HashMap κ ν) (k : κ) (v : ν) : Option ν × HashMap κ ν :=
  (m.get k, ⟨(k, v) :: m.entries.filter (fun e => e.1 ≠ k), m.nodup_insert k v⟩)

theorem get_eq_none {m : HashMap κ ν} {k : κ} : m.get k = none ↔ k ∉ m.keys := by
  simp only [get, Option.map_eq_none', List.find?_eq_none, decide_eq_true_eq, mem_keys, not_exists]
  exact ⟨fun h v hv => h _ hv rfl, fun h e he hk => h e.2 (hk ▸ he)⟩

theorem get_eq_some {m : HashMap κ ν} {k : κ} {v : ν} : m.get k = some v ↔ (k, v) ∈ m.entries := by
  constructor
  · simp only [get, Option.map_eq_some']
    rintro ⟨⟨k', v'⟩, h, rfl⟩
    obtain rfl : k' = k := by simpa using List.find?_some h
    exact List.mem_of_find?_eq_some h
  · intro h
    obtain ⟨e, he⟩ : ∃ e, m.entries.find? (fun e => e.1 = k) = some e :=
      Option.isSome_iff_exists.1 (List.find?_isSome.2 ⟨_, h, by simp⟩)
    have hk : e.1 = k := by simpa using List.find?_some he
    have hv := List.inj_on_of_nodup_map m.nodupKeys (List.mem_of_find?_eq_some he) h hk
    simp [get, he, hv]

theorem mem_insert {m : HashMap κ ν} {k : κ} {v : ν} {e : κ × ν} :
    e ∈ (m.insert k v).2.entries ↔ e = (k, v) ∨ (e ∈ m.entries ∧ e.1 ≠ k) := by
  simp [insert]

theorem get_insert (m : HashMap κ ν) (k : κ) (v : ν) (q : κ) :
    (m.insert k v).2.get q = if q = k then some v else m.get q := by
  split_ifs with hq
  · exact get_eq_some.2 (mem_insert.2 (.inl (hq ▸ rfl)))
  cases h : m.get q with
  | none =>
    refine get_eq_none.2 fun hmem => ?_
    obtain ⟨w, hw⟩ := mem_keys.1 hmem
    rcases mem_insert.1 hw with he | ⟨he, -⟩
    · exact hq (congrArg Prod.fst he)
    · exact get_eq_none.1 h (mem_keys.2 ⟨w, he⟩)
  | some w => exact get_eq_some.2 (mem_insert.2 (.inr ⟨get_eq_some.1 h, hq⟩))

theorem containsKey_eq_isSome (m : HashMap κ ν) (k : κ) : m.containsKey k = (m.get k).isSome := by
  cases h : m.get k with
  | none => simpa [containsKey] using get_eq_none.1 h
  | some w => simpa [containsKey] using mem_keys.2 ⟨w, get_eq_some.1 h⟩

/-- Inserting a fresh key displaces nothing and keeps every entry. -/
theorem insert_of_not_mem {m : HashMap κ ν} {k : κ} (h : k ∉ m.keys) (v : ν) :
    (m.insert k v).1 = none ∧ (m.insert k v).2.entries = (k, v) :: m.entries := by
  refine ⟨get_eq_none.2 h, ?_⟩
  simp only [insert, List.cons.injEq, true_and, List.filter_eq_self]
  intro e he
  have : e.1 ≠ k := fun hk => h (hk ▸ List.mem_map_of_mem Prod.fst he)
  simpa using this

/-- `collect()` into a `HashMap`: the entries inserted one after the other. -/
def ofList (l : List (κ × ν)) : HashMap κ ν := l.foldl (fun m e => (m.insert e.1 e.2).2) new

/-- Inserting pairs of other keys leaves a lookup as it was. -/
theorem get_foldl_insert_of_forall_ne {k : κ} : ∀ (l : List (κ × ν)) (m : HashMap κ ν),
    (∀ e ∈ l, e.1 ≠ k) → (l.foldl (fun m e => (m.insert e.1 e.2).2) m).get k = m.get k
  | [], _, _ => rfl
  | e :: l, m, h => by
    rw [List.foldl_cons, get_foldl_insert_of_forall_ne l _ fun e' he' => h e' (.tail _ he'),
      get_insert, if_neg (Ne.symm (h e (.head _)))]

/-- **`collect()` keeps the last value of a key**: a later pair overwrites every
earlier pair with the same key. -/
theorem get_ofList_of_last {pre post : List (κ × ν)} {k : κ} {v : ν}
    (hpost : ∀ e ∈ post, e.1 ≠ k) : (ofList (pre ++ (k, v) :: post)).get k = some v := by
  rw [ofList, List.foldl_append, List.foldl_cons, get_foldl_insert_of_forall_ne post _ hpost,
    get_insert, if_pos rfl]

theorem mem_foldl_insert : ∀ (l : List (κ × ν)) (m : HashMap κ ν),
    (l.map Prod.fst).Nodup → (∀ k ∈ l.map Prod.fst, k ∉ m.keys) →
    ∀ e, e ∈ (l.foldl (fun m e => (m.insert e.1 e.2).2) m).entries ↔ e ∈ l ∨ e ∈ m.entries
  | [], _, _, _, _ => by simp
  | e :: l, m, hnd, hfresh, x => by
    obtain ⟨hel, hnd⟩ := List.nodup_cons.1 hnd
    have hins := (insert_of_not_mem (hfresh e.1 (.head _)) e.2).2
    rw [List.foldl_cons, mem_foldl_insert l _ hnd fun k hk hmem => ?_, hins, List.mem_cons,
      List.mem_cons]
    · tauto
    · rw [keys, hins, List.map_cons, List.mem_cons] at hmem
      rcases hmem with rfl | hmem
      · exact hel hk
      · exact hfresh k (.tail _ hk) hmem

/-- Collecting entries with distinct keys keeps exactly those entries. -/
theorem mem_ofList {l : List (κ × ν)} (hnd : (l.map Prod.fst).Nodup) (e : κ × ν) :
    e ∈ (ofList l).entries ↔ e ∈ l := by
  simpa [ofList] using mem_foldl_insert l new hnd (by simp [keys]) e

end HashMap

end LiteRpc
