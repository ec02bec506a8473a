import LiteRpc.Rust.Collections

/-!
# Which slots the Postgres block store claims to hold

`PostgresQueryBlockStore::is_block_in_range` (`blockstore/src/block_stores/postgres/
postgres_block_store_query.rs`) asks `get_slot_range_by_epoch` for the slot range
stored for each epoch and looks up the epoch of the slot.  The database is seen
through what the session answers to the two queries of `get_slot_range_by_epoch`
(`SessionAnswers`): the epoch schemas, and the rows `(epoch, min(slot), max(slot))`
of the min/max query, whose `i64` columns are `BitVec 64` here.  The epoch
schedule (`EpochCache`, not among the sources) is a function from slots to epochs.
`PostgresEpoch::parse_epoch_from_schema_name`, not among the sources either, reads
the epoch of each schema name only to write the text of the min/max query, which
the answers stand for; it is taken never to panic.

* `get_slot_range_by_epoch` panics when the schema query fails (`unwrap`) or when
  the min/max query repeats an epoch (`assert!`), returns no range when there is no
  schema or the min/max query fails or is empty, and otherwise maps each row's
  epoch to its range (`getSlotRangeByEpoch_spec`).
* `is_block_in_range` computes whether the range contains the slot, and then
  reports only whether there was a range: **it is `true` exactly when the min/max
  query has a row for the slot's epoch, whatever that row's slot range**
  (`isBlockInRange_iff`).
-/

namespace LiteRpc.Blockstore

/-- `RangeInclusive<Slot>`, from `start()` to `end()`. -/
structure SlotRange where
  start : Nat
  last : Nat
deriving DecidableEq

/-- `RangeInclusive::contains`. -/
def SlotRange.contains (r : SlotRange) (slot : Nat) : Bool := r.start ≤ slot && slot ≤ r.last

/-- A row of the min/max query: the `i64` columns `epoch`, `slot_min`, `slot_max`. -/
structure MinmaxRow where
  epoch : BitVec 64
  slotMin : BitVec 64
  slotMax : BitVec 64
deriving DecidableEq

/-- What the session answers to the two queries of `get_slot_range_by_epoch`. -/
structure SessionAnswers where
  /-- The `schema_name`s of the epoch schemas. -/
  schemaNames : Except String (List String)
  /-- The rows of the min/max query over those schemas. -/
  rowsMinmax : Except String (List MinmaxRow)

/-- The message of `unwrap` on an `Err`, followed by what `{:?}` prints for it. -/
def unwrapOnErr (debug : String) : String := "called `Result::unwrap()` on an `Err` value: " ++ debug

theorem front_unwrapOnErr (debug : String) : (unwrapOnErr debug).front = 'c' := rfl

/-- The message of the `assert!` of the grouping fold. -/
def epochMustBeUnique : String := "epoch must be unique"

/-- The message of the `expect` on a grouped range. -/
def rangeMustBeReturned : String := "range must be returned from SQL"

/-- `x as u64` for an `i64`: the same 64 bits, read unsigned. -/
def asU64 (x : BitVec 64) : Nat := x.toNat

/-- One step of `into_grouping_map().fold(None, ..)`: the accumulator of a key seen
for the first time is `None`, and the `assert!` rejects any other. -/
def foldEpoch (m : HashMap (BitVec 64) (Option SlotRange)) (row : BitVec 64 × SlotRange) :
    Except String (HashMap (BitVec 64) (Option SlotRange)) :=
  let acc := (m.get row.1).getD none
  if acc.isNone then .ok (m.insert row.1 (some row.2)).2 else .error epochMustBeUnique

/-- `RangeInclusive::new(slot_min as Slot, slot_max as Slot)` of a row. -/
def MinmaxRow.range (row : MinmaxRow) : SlotRange := ⟨asU64 row.slotMin, asU64 row.slotMax⟩

/-- The closure of the final `map`: the epoch as an `EpochRef`, and the range of the
grouping unwrapped by `expect`. -/
def toFinalRange : BitVec 64 × Option SlotRange → Except String (Nat × SlotRange)
  | (epoch, some range) => .ok (asU64 epoch, range)
  | (_, none) => .error rangeMustBeReturned

/-- The end of `get_slot_range_by_epoch`: the rows grouped by epoch, each range
unwrapped, and collected into the map it returns. -/
def rangesByEpoch (rowsMinmax : List MinmaxRow) : Except String (HashMap Nat SlotRange) := do
  let mapEpochToSlotRange ←
    (rowsMinmax.map fun row => (row.epoch, row.range)).foldlM foldEpoch HashMap.new
  let finalRange ← mapEpochToSlotRange.entries.mapM toFinalRange
  return HashMap.ofList finalRange

/-- `PostgresQueryBlockStore::get_slot_range_by_epoch`; `Except.error` is a panic. -/
def getSlotRangeByEpoch (db : SessionAnswers) : Except String (HashMap Nat SlotRange) := do
  let result ← db.schemaNames.mapError unwrapOnErr
  if result.isEmpty then return HashMap.new
  match db.rowsMinmax with
  | .error _ => return HashMap.new
  | .ok rowsMinmax =>
    if rowsMinmax.isEmpty then return HashMap.new
    rangesByEpoch rowsMinmax

/-- `PostgresQueryBlockStore::is_block_in_range`, with `epochAtSlot` the epoch
schedule's `get_epoch_at_slot`. -/
def isBlockInRange (epochAtSlot : Nat → Nat) (db : SessionAnswers) (slot : Nat) :
    Except String Bool := do
  let epoch := epochAtSlot slot
  let ranges ← getSlotRangeByEpoch db
  let matchingRange := ranges.get epoch
  return (matchingRange.map fun slotRange => slotRange.contains slot).isSome

/-! ## The grouping fold -/

section Grouping

variable {m : HashMap (BitVec 64) (Option SlotRange)}

/-- While every stored accumulator is `Some`, a fold step fails exactly on a key
already stored. -/
theorem foldEpoch_eq (hsome : ∀ e ∈ m.entries, e.2.isSome) (row : BitVec 64 × SlotRange) :
    foldEpoch m row =
      if row.1 ∈ m.keys then .error epochMustBeUnique else .ok (m.insert row.1 (some row.2)).2 := by
  unfold foldEpoch
  cases h : m.get row.1 with
  | none => simp [HashMap.get_eq_none.1 h]
  | some v =>
    have hv := hsome _ (HashMap.get_eq_some.1 h)
    have hk : row.1 ∈ m.keys := HashMap.mem_keys.2 ⟨v, HashMap.get_eq_some.1 h⟩
    obtain ⟨w, rfl⟩ := Option.isSome_iff_exists.1 hv
    simp [hk]

theorem foldlM_foldEpoch_ok : ∀ (rows : List (BitVec 64 × SlotRange))
    (m m' : HashMap (BitVec 64) (Option SlotRange)), (∀ e ∈ m.entries, e.2.isSome) →
    rows.foldlM foldEpoch m = .ok m' →
    (m.keys ++ rows.map Prod.fst).Nodup ∧ (∀ e ∈ m'.entries, e.2.isSome) ∧
      ∀ k r, (k, some r) ∈ m'.entries ↔ (k, some r) ∈ m.entries ∨ (k, r) ∈ rows
  | [], m, m', hsome, h => by
    cases h
    exact ⟨by simpa [HashMap.keys] using m.nodupKeys, hsome, by simp⟩
  | row :: rows, m, m', hsome, h => by
    rw [List.foldlM_cons, foldEpoch_eq hsome] at h
    split_ifs at h with hk
    · cases h
    have hins := (HashMap.insert_of_not_mem hk (some row.2)).2
    have hsome' : ∀ e ∈ (m.insert row.1 (some row.2)).2.entries, e.2.isSome := by
      rw [hins]
      rintro e (_ | ⟨_, he⟩)
      · rfl
      · exact hsome e he
    obtain ⟨hnd, hsome'', hmem⟩ := foldlM_foldEpoch_ok rows _ m' hsome' h
    rw [HashMap.keys, hins, List.map_cons, List.cons_append] at hnd
    refine ⟨List.perm_middle.nodup_iff.2 hnd, hsome'', fun k r => ?_⟩
    obtain ⟨k₀, r₀⟩ := row
    simp only [hmem, hins, List.mem_cons, Prod.mk.injEq, Option.some.injEq]
    tauto

theorem foldlM_foldEpoch_error : ∀ (rows : List (BitVec 64 × SlotRange))
    (m : HashMap (BitVec 64) (Option SlotRange)) (msg : String), (∀ e ∈ m.entries, e.2.isSome) →
    rows.foldlM foldEpoch m = .error msg →
    msg = epochMustBeUnique ∧ ¬(m.keys ++ rows.map Prod.fst).Nodup
  | [], _, _, _, h => by cases h
  | row :: rows, m, msg, hsome, h => by
    rw [List.foldlM_cons, foldEpoch_eq hsome] at h
    split_ifs at h with hk
    · cases h
      exact ⟨rfl, fun hnd => List.disjoint_of_nodup_append hnd hk (.head _)⟩
    have hins := (HashMap.insert_of_not_mem hk (some row.2)).2
    have hsome' : ∀ e ∈ (m.insert row.1 (some row.2)).2.entries, e.2.isSome := by
      rw [hins]
      rintro e (_ | ⟨_, he⟩)
      · rfl
      · exact hsome e he
    obtain ⟨hmsg, hnd⟩ := foldlM_foldEpoch_error rows _ msg hsome' h
    refine ⟨hmsg, fun h' => hnd ?_⟩
    rw [HashMap.keys, hins, List.map_cons, List.cons_append]
    exact List.perm_middle.nodup_iff.1 h'

end Grouping

theorem mapM_toFinalRange : ∀ (l : List (BitVec 64 × Option SlotRange)), (∀ e ∈ l, e.2.isSome) →
    l.mapM toFinalRange = .ok (l.map fun e => (asU64 e.1, e.2.getD ⟨0, 0⟩))
  | [], _ => rfl
  | (k, some r) :: l, h => by
    rw [List.mapM_cons, mapM_toFinalRange l fun e he => h e (.tail _ he)]
    rfl
  | (_, none) :: _, h => absurd (h _ (.head _)) (by simp)

/-- **The ranges of a successful grouping**: the rows have distinct epochs, and the
map holds for each row's epoch, read as `u64`, that row's range. -/
theorem rangesByEpoch_ok {rows : List MinmaxRow} {ranges : HashMap Nat SlotRange}
    (h : rangesByEpoch rows = .ok ranges) :
    (rows.map (·.epoch)).Nodup ∧ ∀ e r, ranges.get e = some r ↔
      ∃ row ∈ rows, asU64 row.epoch = e ∧ r = row.range := by
  unfold rangesByEpoch at h
  cases hfold : (rows.map fun row => (row.epoch, row.range)).foldlM foldEpoch HashMap.new with
  | error msg => simp [hfold, bind, Except.bind] at h
  | ok m =>
  obtain ⟨hnd, hsome, hmem⟩ := foldlM_foldEpoch_ok _ _ m (by simp) hfold
  simp only [hfold, bind, Except.bind, mapM_toFinalRange _ hsome, pure, Except.pure,
    Except.ok.injEq] at h
  subst h
  have hkeys : ((m.entries.map fun e => (asU64 e.1, e.2.getD ⟨0, 0⟩)).map Prod.fst).Nodup := by
    have hfst : (m.entries.map fun e => (asU64 e.1, e.2.getD ⟨0, 0⟩)).map Prod.fst =
        (m.entries.map Prod.fst).map asU64 := by simp [Function.comp_def]
    rw [hfst]
    exact m.nodupKeys.map fun _ _ => BitVec.eq_of_toNat_eq
  refine ⟨by simpa [HashMap.keys, Function.comp_def] using hnd, fun e r => ?_⟩
  rw [HashMap.get_eq_some, HashMap.mem_ofList hkeys, List.mem_map]
  constructor
  · rintro ⟨⟨k, o⟩, hko, he⟩
    obtain ⟨r', rfl⟩ := Option.isSome_iff_exists.1 (hsome _ hko)
    obtain ⟨rfl, rfl⟩ := Prod.mk.inj he
    rcases (hmem k r').1 hko with h | h
    · cases h
    · obtain ⟨row, hrow, hrk⟩ := List.mem_map.1 h
      obtain ⟨rfl, rfl⟩ := Prod.mk.inj hrk
      exact ⟨row, hrow, rfl, rfl⟩
  · rintro ⟨row, hrow, rfl, rfl⟩
    exact ⟨(row.epoch, some row.range), (hmem _ _).2 (.inr (List.mem_map_of_mem _ hrow)), rfl⟩

/-- **The failures of a grouping**: only the `assert!`, on a repeated epoch. -/
theorem rangesByEpoch_error {rows : List MinmaxRow} {msg : String}
    (h : rangesByEpoch rows = .error msg) :
    msg = epochMustBeUnique ∧ ¬(rows.map (·.epoch)).Nodup := by
  unfold rangesByEpoch at h
  cases hfold : (rows.map fun row => (row.epoch, row.range)).foldlM foldEpoch HashMap.new with
  | error msg' =>
    obtain ⟨rfl, hnd⟩ := foldlM_foldEpoch_error _ _ msg' (by simp) hfold
    simp only [hfold, bind, Except.bind, Except.error.injEq] at h
    subst h
    simpa [HashMap.keys, Function.comp_def] using hnd
  | ok m =>
    obtain ⟨-, hsome, -⟩ := foldlM_foldEpoch_ok _ _ m (by simp) hfold
    simp only [hfold, bind, Except.bind] at h
    rw [mapM_toFinalRange _ hsome] at h
    cases h

/-! ## `get_slot_range_by_epoch` and `is_block_in_range` -/

/-- `get_slot_range_by_epoch` case by case: the `unwrap` of the schema query, the
two early returns of an empty map, and the grouping. -/
theorem getSlotRangeByEpoch_eq (db : SessionAnswers) :
    getSlotRangeByEpoch db =
      match db.schemaNames, db.rowsMinmax with
      | .error err, _ => .error (unwrapOnErr err)
      | .ok _, .error _ => .ok HashMap.new
      | .ok names, .ok rows =>
        if names.isEmpty || rows.isEmpty then .ok HashMap.new else rangesByEpoch rows := by
  unfold getSlotRangeByEpoch
  cases db.schemaNames with
  | error e => rfl
  | ok names =>
    cases db.rowsMinmax with
    | error e => by_cases h : names.isEmpty <;> simp [h, Except.mapError, bind, Except.bind, pure, Except.pure]
    | ok rows =>
      by_cases h : names.isEmpty <;> by_cases h' : rows.isEmpty <;>
        simp [h, h', Except.mapError, bind, Except.bind, pure, Except.pure]

/-- **What `get_slot_range_by_epoch` returns.**  When it returns, it maps an epoch to
a range exactly when the schema query listed a schema and the min/max query has a
row for that epoch (read as `u64`), and the range is that row's.  It panics
exactly when the schema query fails, or when the min/max query succeeds with
rows that repeat an epoch. -/
theorem getSlotRangeByEpoch_spec (db : SessionAnswers) :
    (∀ ranges, getSlotRangeByEpoch db = .ok ranges → ∀ e r, ranges.get e = some r ↔
      ∃ names rows, db.schemaNames = .ok names ∧ names ≠ [] ∧ db.rowsMinmax = .ok rows ∧
        ∃ row ∈ rows, asU64 row.epoch = e ∧ r = row.range) ∧
    ∀ msg, getSlotRangeByEpoch db = .error msg ↔
      (∃ err, db.schemaNames = .error err ∧ msg = unwrapOnErr err) ∨
      ∃ names rows, db.schemaNames = .ok names ∧ names ≠ [] ∧ db.rowsMinmax = .ok rows ∧
        ¬(rows.map (·.epoch)).Nodup ∧ msg = epochMustBeUnique := by
  rw [getSlotRangeByEpoch_eq]
  cases hn : db.schemaNames with
  | error err => simp [eq_comm]
  | ok names =>
  cases hr : db.rowsMinmax with
  | error err => simp [HashMap.get]
  | ok rows =>
  by_cases hne : names.isEmpty || rows.isEmpty
  · have hempty : names = [] ∨ rows = [] := by simpa using hne
    simp only [hne, if_true]
    refine ⟨fun ranges h e r => ?_, fun msg => by rcases hempty with rfl | rfl <;> simp⟩
    cases h
    simp only [HashMap.get, HashMap.entries_new, List.find?_nil, Option.map_none', reduceCtorEq,
      false_iff, not_exists, not_and, Except.ok.injEq]
    rintro _ _ rfl hne' rfl row hrow
    rcases hempty with rfl | rfl
    · exact absurd rfl hne'
    · cases hrow
  · have hne' : names ≠ [] ∧ rows ≠ [] := by simpa [not_or] using hne
    simp only [hne, if_false, Except.ok.injEq, reduceCtorEq, false_and, exists_false, false_or,
      exists_and_left, exists_eq_left', ne_eq, hne'.1, not_false_eq_true, true_and]
    refine ⟨fun ranges h e r => ?_, fun msg => ⟨fun h => (rangesByEpoch_error h).symm, ?_⟩⟩
    · rw [(rangesByEpoch_ok h).2]
    · rintro ⟨hnd, rfl⟩
      cases h : rangesByEpoch rows with
      | error msg' => rw [(rangesByEpoch_error h).1]
      | ok ranges => exact absurd (rangesByEpoch_ok h).1 hnd

/-- **`is_block_in_range` ignores the slot range.**  It returns `true` exactly when
the schema query lists a schema and the min/max query has, among rows with
distinct epochs, a row for the epoch of the slot, whatever that row's `slot_min`
and `slot_max`: `is_some` drops the result of `contains`. -/
theorem isBlockInRange_iff (epochAtSlot : Nat → Nat) (db : SessionAnswers) (slot : Nat) :
    isBlockInRange epochAtSlot db slot = .ok true ↔
      ∃ names rows, db.schemaNames = .ok names ∧ names ≠ [] ∧ db.rowsMinmax = .ok rows ∧
        (rows.map (·.epoch)).Nodup ∧ ∃ row ∈ rows, asU64 row.epoch = epochAtSlot slot := by
  unfold isBlockInRange
  rw [getSlotRangeByEpoch_eq]
  cases hn : db.schemaNames with
  | error err => simp [bind, Except.bind]
  | ok names =>
  cases hr : db.rowsMinmax with
  | error err => simp [bind, Except.bind, pure, Except.pure, HashMap.get]
  | ok rows =>
  by_cases hne : names.isEmpty || rows.isEmpty
  · have hempty : names = [] ∨ rows = [] := by simpa using hne
    simp only [hne, ↓reduceIte]
    rcases hempty with rfl | rfl <;> simp [bind, Except.bind, pure, Except.pure, HashMap.get]
  · have hne' : names ≠ [] ∧ rows ≠ [] := by simpa [not_or] using hne
    simp only [hne, ↓reduceIte]
    cases hg : rangesByEpoch rows with
    | error msg => simp [bind, Except.bind, hne'.1, (rangesByEpoch_error hg).2]
    | ok ranges =>
      have hget : (ranges.get (epochAtSlot slot)).isSome ↔
          ∃ row ∈ rows, asU64 row.epoch = epochAtSlot slot := by
        rw [Option.isSome_iff_exists]
        simp only [(rangesByEpoch_ok hg).2]
        exact ⟨fun ⟨_, row, hrow, he, _⟩ => ⟨row, hrow, he⟩,
          fun ⟨row, hrow, he⟩ => ⟨_, row, hrow, he, rfl⟩⟩
      simp [bind, Except.bind, pure, Except.pure, hget, hne'.1, (rangesByEpoch_ok hg).1]

/-- A slot of epoch `0` outside the range `[100, 200]` stored for that epoch is
reported as in range. -/
example : isBlockInRange (· / 432000) ⟨.ok ["rpc2a_epoch_0"], .ok [⟨0, 100, 200⟩]⟩ 250 = .ok true ∧
    (⟨100, 200⟩ : SlotRange).contains 250 = false :=
  ⟨rfl, rfl⟩

end LiteRpc.Blockstore
