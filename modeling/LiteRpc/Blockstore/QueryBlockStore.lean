import LiteRpc.Blockstore.SlotRange
import LiteRpc.Bench.Rpc

/-!
# The rest of `PostgresQueryBlockStore`: its self checks, `query_block`, `get_slot_range`

The other methods of `blockstore/src/block_stores/postgres/postgres_block_store_query.rs`,
each over what the Postgres session answers to its queries.

* `new` opens the session and runs two self checks, each of which panics.  The
  `expect` of the version check carries the text of the role check, **"must
  execute query to check for role"**, so a failed version query and a failed
  role query panic alike (`postgresQueryBlockStore_new_eq_error`).
* `query_block` fails under the context "query block sql" when the block query
  fails and "block not found" when it finds no row, passes the error of the
  transaction query up, and otherwise returns the block's transactions **sorted
  by `idx_in_block`, those of one index in the order the query returned them**
  (`queryBlock_spec`).
* `get_slot_range` spans the ranges `get_slot_range_by_epoch` returns, from the
  least start to the greatest end.  That function answers an empty map when
  there is no epoch schema, when the min/max query fails, or when it has no row,
  and then both `expect`s panic with **"non-empty result - TODO"**
  (`getSlotRange_spec`).
-/

namespace LiteRpc.Blockstore

/-! ## The self checks of `new` -/

/-- What the session answers to the self checks. -/
structure SelfCheckAnswers where
  /-- `PostgresSession::new`. -/
  session : Except String Unit
  /-- The version query: `version()`, and whether `server_version_num` is at least
  `150000`. -/
  version : Except String (String × Bool)
  /-- The number of rows of the role query. -/
  roleCount : Except String Nat

/-- The message of the `expect` on the query of each self check, followed by what
`{:?}` prints for the error. -/
def mustExecuteQueryToCheckForRole (debug : String) : String :=
  "must execute query to check for role: " ++ debug

/-- The message of the `assert!` on the version. -/
def postgresVersionMustBe15 (versionString : String) : String :=
  "Postgres version must be 15 or higher, found: " ++ versionString

/-- The message of the `panic!` on a missing role. -/
def missingQueryRole (role : String) : String :=
  "Missing mandatory postgres query role '" ++ role ++ "' for Lite RPC - see permissions.sql"

/-- `check_postgresql_version`; `Except.error` is a panic. -/
def checkPostgresqlVersion (a : SelfCheckAnswers) : Except String Unit := do
  let (versionString, isV15OrHigher) ← a.version.mapError mustExecuteQueryToCheckForRole
  if isV15OrHigher then pure () else .error (postgresVersionMustBe15 versionString)

/-- `check_query_role`, for the role `LITERPC_QUERY_ROLE`; `Except.error` is a panic. -/
def checkQueryRole (role : String) (a : SelfCheckAnswers) : Except String Unit := do
  let count ← a.roleCount.mapError mustExecuteQueryToCheckForRole
  if count = 0 then .error (missingQueryRole role) else pure ()

/-- `PostgresQueryBlockStore::new`: the session is unwrapped, then the version and
the role are checked; `Except.error` is a panic. -/
def PostgresQueryBlockStore.new (role : String) (a : SelfCheckAnswers) : Except String Unit := do
  a.session.mapError unwrapOnErr
  checkPostgresqlVersion a
  checkQueryRole role a

/-- **When `new` panics, and with which message.**  It panics on a failed session
(`unwrap`), on a failed version query, on a version below 15, on a failed role
query and on a missing role, in that order; the failed version query and the
failed role query give the same message, the one that names the role check. -/
theorem postgresQueryBlockStore_new_eq_error (role : String) (a : SelfCheckAnswers) (msg : String) :
    PostgresQueryBlockStore.new role a = .error msg ↔
      (∃ e, a.session = .error e ∧ msg = unwrapOnErr e) ∨
      a.session = .ok () ∧
        ((∃ e, a.version = .error e ∧ msg = mustExecuteQueryToCheckForRole e) ∨
          (∃ v, a.version = .ok (v, false) ∧ msg = postgresVersionMustBe15 v) ∨
          (∃ v, a.version = .ok (v, true)) ∧
            ((∃ e, a.roleCount = .error e ∧ msg = mustExecuteQueryToCheckForRole e) ∨
              a.roleCount = .ok 0 ∧ msg = missingQueryRole role)) := by
  refine eq_comm.trans ?_
  rcases a with ⟨_ | ⟨⟩, _ | ⟨v, _ | _⟩, _ | _ | n⟩ <;>
    simp [PostgresQueryBlockStore.new, checkPostgresqlVersion, checkQueryRole, Except.mapError,
      bind, Except.bind, pure, Except.pure]

/-- A server whose version query fails panics with the text of the role check. -/
example (role : String) :
    PostgresQueryBlockStore.new role ⟨.ok (), .error "connection reset", .ok 1⟩ =
      .error "must execute query to check for role: connection reset" := rfl

/-! ## `query_block` -/

/-- A row of the transaction query: its `idx` column, and the rest of the row. -/
structure TxRow (α : Type) where
  idxInBlock : Int
  row : α

/-- What the session answers to the two queries of `query_block`. -/
structure BlockQueryAnswers (β α : Type) where
  /-- `query_opt` of the block statement: the block's row, if any. -/
  block : Except String (Option β)
  /-- `query_list` of the transaction statement. -/
  transactions : Except String (List (TxRow α))

/-- What `query_block` builds its `ProducedBlock` from: the block's row, the
transactions in their order, and the commitment it reports. -/
structure QueriedBlock (β α : Type) where
  block : β
  transactions : List α
  commitment : Bench.CommitmentLevel

/-- The context of a failed block query. -/
def queryBlockSql : String := "query block sql"

/-- The context of a block query with no row. -/
def blockNotFound : String := "block not found"

variable {β α : Type}

/-- The order of `sorted_by(|a, b| a.idx_in_block.cmp(&b.idx_in_block))`. -/
def idxLe (x y : TxRow α) : Bool := decide (x.idxInBlock ≤ y.idxInBlock)

/-- `PostgresQueryBlockStore::query_block`: both statements are built from the
epoch of the slot and the slot, so the session's answers are indexed by them. -/
def queryBlock (answers : Nat → Nat → BlockQueryAnswers β α) (epochAtSlot : Nat → Nat)
    (slot : Nat) : Except String (QueriedBlock β α) := do
  let epoch := epochAtSlot slot
  let row ← match (answers epoch slot).block with
    | .error _ => .error queryBlockSql
    | .ok none => .error blockNotFound
    | .ok (some row) => pure row
  let transactionRows ← (answers epoch slot).transactions
  let txInfos := (transactionRows.mergeSort idxLe).map TxRow.row
  return ⟨row, txInfos, .confirmed⟩

theorem idxLe_trans (a b c : TxRow α) : idxLe a b → idxLe b c → idxLe a c := by
  simp only [idxLe, decide_eq_true_eq]
  omega

theorem idxLe_total (a b : TxRow α) : (idxLe a b || idxLe b a) := by
  simp only [idxLe, Bool.or_eq_true, decide_eq_true_eq]
  omega

theorem sorted_mergeSort_idxLe (rows : List (TxRow α)) :
    (rows.mergeSort idxLe).Pairwise fun x y => x.idxInBlock ≤ y.idxInBlock :=
  (List.sorted_mergeSort idxLe_trans idxLe_total rows).imp fun hxy => by simpa [idxLe] using hxy

/-- The sort is stable: the rows of one index keep their order. -/
theorem filter_mergeSort_idxLe (rows : List (TxRow α)) (i : Int) :
    (rows.mergeSort idxLe).filter (fun x => x.idxInBlock = i) =
      rows.filter (fun x => x.idxInBlock = i) := by
  have hpw : (rows.filter fun x => x.idxInBlock = i).Pairwise fun x y => idxLe x y :=
    List.pairwise_of_forall_mem_list fun x hx y hy => by
      simp only [List.mem_filter, decide_eq_true_eq] at hx hy
      simp [idxLe, hx.2, hy.2]
  have hsub := (List.sublist_mergeSort idxLe_trans idxLe_total hpw (List.filter_sublist _)).filter
    fun x => decide (x.idxInBlock = i)
  simp only [List.filter_filter, Bool.and_self] at hsub
  exact (hsub.eq_of_length ((List.mergeSort_perm _ _).filter _).length_eq.symm).symm

/-- **What `query_block` returns.**  It fails with "query block sql" when the block
query fails, with "block not found" when that query finds no row, and with the
error of the transaction query when that one fails, and only then.  Otherwise
the block is the row found, its commitment is always `confirmed`, and its
transactions are the rows of the transaction query sorted by `idx_in_block`,
rows of one index keeping the order the query returned them in. -/
theorem queryBlock_spec (answers : Nat → Nat → BlockQueryAnswers β α) (epochAtSlot : Nat → Nat)
    (slot : Nat) :
    (∀ msg, queryBlock answers epochAtSlot slot = .error msg ↔
      (∃ e, (answers (epochAtSlot slot) slot).block = .error e) ∧ msg = queryBlockSql ∨
      (answers (epochAtSlot slot) slot).block = .ok none ∧ msg = blockNotFound ∨
      (∃ row, (answers (epochAtSlot slot) slot).block = .ok (some row)) ∧
        (answers (epochAtSlot slot) slot).transactions = .error msg) ∧
    ∀ b, queryBlock answers epochAtSlot slot = .ok b →
      ∃ rows, (answers (epochAtSlot slot) slot).block = .ok (some b.block) ∧
        (answers (epochAtSlot slot) slot).transactions = .ok rows ∧ b.commitment = .confirmed ∧
        ∃ sorted : List (TxRow α), sorted.Perm rows ∧
          sorted.Pairwise (fun x y => x.idxInBlock ≤ y.idxInBlock) ∧
          (∀ i, sorted.filter (fun x => x.idxInBlock = i) = rows.filter (fun x => x.idxInBlock = i)) ∧
          b.transactions = sorted.map TxRow.row := by
  simp only [queryBlock]
  generalize answers (epochAtSlot slot) slot = a
  rcases a with ⟨_ | _ | row, _ | rows⟩
  case mk.ok.some.ok =>
    refine ⟨fun msg => by simp [bind, Except.bind, pure, Except.pure], fun b h => ?_⟩
    cases h
    exact ⟨rows, rfl, rfl, rfl, _, List.mergeSort_perm _ _, sorted_mergeSort_idxLe rows,
      filter_mergeSort_idxLe rows, rfl⟩
  all_goals exact ⟨fun msg => by simp [bind, Except.bind, pure, Except.pure, eq_comm],
    fun b h => by cases h⟩

/-! ## `get_slot_range` -/

/-- The message of the two `expect`s of `get_slot_range`. -/
def nonEmptyResult : String := "non-empty result - TODO"

/-- The span of some ranges: the least start and the greatest end, each
`expect`ed to exist. -/
def spanOf (rowsMinmax : List SlotRange) : Except String SlotRange := do
  let slotMin ← match (rowsMinmax.map SlotRange.start).min? with
    | some slotMin => pure slotMin
    | none => .error nonEmptyResult
  let slotMax ← match (rowsMinmax.map SlotRange.last).max? with
    | some slotMax => pure slotMax
    | none => .error nonEmptyResult
  return ⟨slotMin, slotMax⟩

/-- `PostgresQueryBlockStore::get_slot_range`.  `values()` visits the map in an
order Rust leaves open; the least start and the greatest end do not depend on it,
so the stored order is taken. -/
def getSlotRange (db : SessionAnswers) : Except String SlotRange := do
  let mapEpochToSlotRange ← getSlotRangeByEpoch db
  spanOf (mapEpochToSlotRange.entries.map Prod.snd)

theorem spanOf_eq_ok_iff (rs : List SlotRange) (r : SlotRange) :
    spanOf rs = .ok r ↔
      (rs.map SlotRange.start).min? = some r.start ∧ (rs.map SlotRange.last).max? = some r.last := by
  unfold spanOf
  cases (rs.map SlotRange.start).min? <;> cases (rs.map SlotRange.last).max? <;> cases r <;>
    simp [bind, Except.bind, pure, Except.pure]

theorem spanOf_eq_ok (rs : List SlotRange) (r : SlotRange) :
    spanOf rs = .ok r ↔
      ((∃ x ∈ rs, r.start = x.start) ∧ ∀ x ∈ rs, r.start ≤ x.start) ∧
        (∃ x ∈ rs, r.last = x.last) ∧ ∀ x ∈ rs, x.last ≤ r.last := by
  simp only [spanOf_eq_ok_iff, List.min?_eq_some_iff', List.max?_eq_some_iff', List.mem_map,
    forall_exists_index, and_imp, forall_apply_eq_imp_iff₂, @eq_comm _ r.start, @eq_comm _ r.last]

theorem spanOf_eq_error (rs : List SlotRange) (msg : String) :
    spanOf rs = .error msg ↔ rs = [] ∧ msg = nonEmptyResult := by
  cases rs with
  | nil => simp [spanOf, bind, Except.bind, eq_comm]
  | cons x rs =>
    simp only [spanOf, List.map_cons, List.min?_cons', List.max?_cons', reduceCtorEq, false_and,
      iff_false]
    simp [bind, Except.bind, pure, Except.pure]

/-- The values of the map of a successful grouping are the ranges of its rows. -/
theorem mem_values_rangesByEpoch {rows : List MinmaxRow} {ranges : HashMap Nat SlotRange}
    (h : rangesByEpoch rows = .ok ranges) (x : SlotRange) :
    x ∈ ranges.entries.map Prod.snd ↔ ∃ row ∈ rows, row.range = x := by
  simp only [List.mem_map]
  constructor
  · rintro ⟨⟨e, x⟩, he, rfl⟩
    obtain ⟨row, hrow, -, rfl⟩ := ((rangesByEpoch_ok h).2 e x).1 (HashMap.get_eq_some.2 he)
    exact ⟨row, hrow, rfl⟩
  · rintro ⟨row, hrow, rfl⟩
    exact ⟨_, HashMap.get_eq_some.1 (((rangesByEpoch_ok h).2 _ _).2 ⟨row, hrow, rfl, rfl⟩), rfl⟩

/-- **What `get_slot_range` returns.**  When it returns, the min/max query had rows
with distinct epochs, and the range runs from the least `slot_min` to the greatest
`slot_max` of its rows.  It panics with "non-empty result - TODO" exactly when the
schema query succeeds but lists no schema, or the min/max query fails, or it has
no row: `get_slot_range_by_epoch` turns each of those into an empty map. -/
theorem getSlotRange_spec (db : SessionAnswers) :
    (∀ r, getSlotRange db = .ok r ↔
      ∃ names rows, db.schemaNames = .ok names ∧ names ≠ [] ∧ db.rowsMinmax = .ok rows ∧
        (rows.map (·.epoch)).Nodup ∧
        ((∃ row ∈ rows, r.start = row.range.start) ∧ ∀ row ∈ rows, r.start ≤ row.range.start) ∧
        (∃ row ∈ rows, r.last = row.range.last) ∧ ∀ row ∈ rows, row.range.last ≤ r.last) ∧
    (getSlotRange db = .error nonEmptyResult ↔
      ∃ names, db.schemaNames = .ok names ∧
        (names = [] ∨ (∃ e, db.rowsMinmax = .error e) ∨ db.rowsMinmax = .ok [])) := by
  unfold getSlotRange
  rw [getSlotRangeByEpoch_eq]
  cases hn : db.schemaNames with
  | error e =>
    simp [bind, Except.bind, nonEmptyResult]
    exact fun h => absurd ((front_unwrapOnErr e).symm.trans (congrArg String.front h)) (by decide)
  | ok names =>
  cases hr : db.rowsMinmax with
  | error e => simp [bind, Except.bind, spanOf_eq_ok, spanOf_eq_error]
  | ok rows =>
  by_cases hne : names.isEmpty || rows.isEmpty
  · have hempty : names = [] ∨ rows = [] := by simpa using hne
    simp only [hne, ↓reduceIte, bind, Except.bind, HashMap.entries_new, List.map_nil, spanOf_eq_ok,
      spanOf_eq_error]
    rcases hempty with rfl | rfl <;> simp
  · have hne' : names ≠ [] ∧ rows ≠ [] := by simpa [not_or] using hne
    simp only [hne, ↓reduceIte]
    cases hg : rangesByEpoch rows with
    | error msg =>
      obtain ⟨rfl, hnd⟩ := rangesByEpoch_error hg
      simp [bind, Except.bind, hnd, hne'.1, hne'.2, epochMustBeUnique, nonEmptyResult]
    | ok ranges =>
      have hmem := mem_values_rangesByEpoch hg
      have hvalues : ranges.entries.map Prod.snd ≠ [] := fun hnil => by
        obtain ⟨row, hrow⟩ := List.exists_mem_of_ne_nil _ hne'.2
        simpa [hnil] using (hmem row.range).2 ⟨row, hrow, rfl⟩
      simp [bind, Except.bind, spanOf_eq_ok, spanOf_eq_error, hmem, hvalues, hne'.1, hne'.2,
        (rangesByEpoch_ok hg).1]

/-- A store whose one epoch schema has no block yet panics; two epochs span from
the first start to the last end. -/
example : getSlotRange ⟨.ok ["rpc2a_epoch_552"], .ok []⟩ = .error nonEmptyResult ∧
    getSlotRange ⟨.ok ["rpc2a_epoch_0", "rpc2a_epoch_1"], .ok [⟨0, 100, 200⟩, ⟨1, 432000, 432100⟩]⟩ =
      .ok ⟨100, 432100⟩ :=
  ⟨rfl, rfl⟩

end LiteRpc.Blockstore
