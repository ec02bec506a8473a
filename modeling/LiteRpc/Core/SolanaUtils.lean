import LiteRpc.Rust.Collections
import LiteRpc.Tokio.Broadcast

/-!
# The stakes of an identity

`SolanaUtils::get_stakes_for_identity` (`core/src/solana_utils.rs`) reads one
`RpcVoteAccountStatus` from the vote-account broadcast channel and reports the
stakes of the node's identity among the current vote accounts, with the least,
the greatest and the total activated stake of all of them.

* It collects the pairs `(node_pubkey, activated_stake)` into a `HashMap`, where a
  later pair overwrites an earlier one of the same key: **the stakes it reports
  are those of the identity's last vote account, not the sum over its vote
  accounts**, and the two agree exactly when every earlier vote account of the
  identity has no activated stake (`getStakesForIdentity_keeps_last`).
* `min_stakes` and `max_stakes` bound the reported stakes, and `total_stakes` is
  the `u64` sum of all activated stakes: the exact sum below `2^64`, wrapped
  above it as a release build computes it.

The value `recv()` reads is what the broadcast model's `Receiver.recv` returns;
`recv().await?` waits on `pending` and passes `Lagged` and `Closed` up.
-/

namespace LiteRpc.Core

open LiteRpc.Tokio

/-! ## The data and the function -/

/-- `RpcVoteAccountInfo`, with the two fields `get_stakes_for_identity` reads. -/
structure RpcVoteAccountInfo where
  nodePubkey : String
  activatedStake : UInt64
deriving DecidableEq

/-- `RpcVoteAccountStatus`: only the current vote accounts are read. -/
structure RpcVoteAccountStatus where
  current : List RpcVoteAccountInfo
deriving DecidableEq

/-- `ConnectionPeerType` of `solana_streamer`. -/
inductive ConnectionPeerType where
  | unstaked
  | staked
deriving DecidableEq

/-- `IdentityStakes`, its fields in the order `get_stakes_for_identity` sets them. -/
structure IdentityStakes where
  peerType : ConnectionPeerType
  stakes : UInt64
  minStakes : UInt64
  maxStakes : UInt64
  totalStakes : UInt64
deriving DecidableEq

/-- `IdentityStakes::default()`: an unstaked peer with no stake. -/
def IdentityStakes.default : IdentityStakes := ⟨.unstaked, 0, 0, 0, 0⟩

/-- The error of a broadcast `recv()`, which `?` passes up. -/
inductive RecvError where
  | closed
  | lagged (missed : Nat)
deriving DecidableEq

/-- `SolanaUtils::get_stakes_for_identity`, on what `recv()` reads from the
vote-account channel (`none` while it waits); `identity` is `identity.to_string()`.
`sum()` over `u64` wraps on overflow in a release build, as `UInt64` addition does. -/
def getStakesForIdentity (rpcVoteAccountStreamer : RecvOutcome RpcVoteAccountStatus)
    (identity : String) : Option (Except RecvError IdentityStakes) :=
  match rpcVoteAccountStreamer with
  | .pending => none
  | .lagged missed => some (.error (.lagged missed))
  | .closed => some (.error .closed)
  | .value voteAccounts =>
    let mapOfStakes : HashMap String UInt64 :=
      HashMap.ofList (voteAccounts.current.map fun x => (x.nodePubkey, x.activatedStake))
    match mapOfStakes.get identity with
    | some stakes =>
      let allStakes := voteAccounts.current.map (·.activatedStake)
      some (.ok
        { peerType := .staked, stakes := stakes, minStakes := allStakes.min?.getD 0,
          maxStakes := allStakes.max?.getD 0, totalStakes := allStakes.foldl (· + ·) 0 })
    | none => some (.ok .default)

/-- The sum of `activated_stake` over some vote accounts, as an exact number. -/
def activatedStakeSum : List RpcVoteAccountInfo → Nat
  | [] => 0
  | x :: xs => x.activatedStake.toNat + activatedStakeSum xs

/-! ## `u64` arithmetic through `toNat` -/

theorem le_iff_toNat_le {a b : UInt64} : a ≤ b ↔ a.toNat ≤ b.toNat := BitVec.le_def

theorem toNat_add (a b : UInt64) : (a + b).toNat = (a.toNat + b.toNat) % UInt64.size :=
  BitVec.toNat_add _ _

theorem toNat_min (a b : UInt64) : (min a b).toNat = min a.toNat b.toNat := by
  show (if a ≤ b then a else b).toNat = _
  split <;> rename_i h <;> rw [le_iff_toNat_le] at h <;> omega

theorem toNat_max (a b : UInt64) : (max a b).toNat = max a.toNat b.toNat := by
  show (if a ≤ b then b else a).toNat = _
  split <;> rename_i h <;> rw [le_iff_toNat_le] at h <;> omega

/-- A fold that keeps one of its two arguments stays on one side, `R`, of every value
it has seen: the least value for `min`, the greatest for `max`. -/
theorem foldl_rel_of_mem {op : UInt64 → UInt64 → UInt64} {R : Nat → Nat → Prop}
    (htrans : ∀ a b c, R a b → R b c → R a c) (hrefl : ∀ a, R a a)
    (hop : ∀ a b, R (op a b).toNat a.toNat ∧ R (op a b).toNat b.toNat) (l : List UInt64) :
    ∀ a y : UInt64, y ∈ a :: l → R (l.foldl op a).toNat y.toNat := by
  induction l with
  | nil => exact fun a y h => List.mem_singleton.1 h ▸ hrefl _
  | cons b l ih =>
    intro a y h
    have hhead := ih (op a b) _ (.head _)
    rcases List.mem_cons.1 h with rfl | h
    · exact htrans _ _ _ hhead (hop y b).1
    rcases List.mem_cons.1 h with rfl | h
    · exact htrans _ _ _ hhead (hop a y).2
    · exact ih _ y (.tail _ h)

/-- `iter().min().map_or(0, ..)` is at most every element. -/
theorem min?_getD_le {l : List UInt64} {y : UInt64} (hy : y ∈ l) : l.min?.getD 0 ≤ y := by
  cases l with
  | nil => cases hy
  | cons a l =>
    exact le_iff_toNat_le.2 (foldl_rel_of_mem (R := (· ≤ ·)) (fun _ _ _ => Nat.le_trans)
      Nat.le_refl (fun a b => by rw [toNat_min]; omega) l a y hy)

/-- `iter().max().map_or(0, ..)` is at least every element. -/
theorem le_max?_getD {l : List UInt64} {y : UInt64} (hy : y ∈ l) : y ≤ l.max?.getD 0 := by
  cases l with
  | nil => cases hy
  | cons a l =>
    exact le_iff_toNat_le.2 (foldl_rel_of_mem (R := fun x y => y ≤ x)
      (fun _ _ _ h h' => Nat.le_trans h' h) Nat.le_refl
      (fun a b => by rw [toNat_max]; omega) l a y hy)

/-- `iter().sum()` over the stakes is their exact sum modulo `2^64`. -/
theorem toNat_foldl_add : ∀ (l : List RpcVoteAccountInfo) (a : UInt64),
    ((l.map (·.activatedStake)).foldl (· + ·) a).toNat =
      (a.toNat + activatedStakeSum l) % UInt64.size
  | [], a => (Nat.mod_eq_of_lt a.toNat_lt_size).symm
  | x :: l, a => by
    rw [List.map_cons, List.foldl_cons, toNat_foldl_add l, toNat_add, activatedStakeSum,
      Nat.mod_add_mod, Nat.add_assoc]

/-! ## The sum over the identity's vote accounts -/

theorem activatedStakeSum_append (l l' : List RpcVoteAccountInfo) :
    activatedStakeSum (l ++ l') = activatedStakeSum l + activatedStakeSum l' := by
  induction l with
  | nil => simp [activatedStakeSum]
  | cons x l ih => simp [activatedStakeSum, ih, Nat.add_assoc]

theorem le_activatedStakeSum {l : List RpcVoteAccountInfo} {x : RpcVoteAccountInfo} (hx : x ∈ l) :
    x.activatedStake.toNat ≤ activatedStakeSum l := by
  induction l with
  | nil => cases hx
  | cons y l ih =>
    rcases List.mem_cons.1 hx with rfl | hx
    · exact Nat.le_add_right _ _
    · exact (ih hx).trans (Nat.le_add_left _ _)

theorem activatedStakeSum_eq_zero {l : List RpcVoteAccountInfo} :
    activatedStakeSum l = 0 ↔ ∀ y ∈ l, y.activatedStake = 0 := by
  induction l with
  | nil => simp [activatedStakeSum]
  | cons x l ih =>
    simp only [activatedStakeSum, Nat.add_eq_zero_iff, ih, List.mem_cons, forall_eq_or_imp]
    exact and_congr_left' ⟨fun h => UInt64.toNat.inj h, fun h => h ▸ rfl⟩

/-- The stake of the identity's last vote account is the sum over all its vote
accounts exactly when the earlier ones have none. -/
theorem last_eq_activatedStakeSum_iff {l pre post : List RpcVoteAccountInfo}
    {x : RpcVoteAccountInfo} {identity : String} (hsplit : l = pre ++ x :: post)
    (hx : x.nodePubkey = identity) (hpost : ∀ y ∈ post, y.nodePubkey ≠ identity) :
    x.activatedStake.toNat = activatedStakeSum (l.filter (·.nodePubkey = identity)) ↔
      ∀ y ∈ pre, y.nodePubkey = identity → y.activatedStake = 0 := by
  have hnil : post.filter (·.nodePubkey = identity) = [] :=
    List.filter_eq_nil_iff.2 (by simpa using hpost)
  rw [hsplit, List.filter_append, List.filter_cons_of_pos (by simpa using hx), hnil,
    activatedStakeSum_append]
  simp only [activatedStakeSum, Nat.add_zero, Nat.self_eq_add_left, activatedStakeSum_eq_zero,
    List.mem_filter, decide_eq_true_eq, and_imp]

/-- An identity with a vote account has a last one. -/
theorem exists_last_vote_account {identity : String} :
    ∀ {l : List RpcVoteAccountInfo}, (∃ y ∈ l, y.nodePubkey = identity) →
      ∃ pre x post, l = pre ++ x :: post ∧ x.nodePubkey = identity ∧
        ∀ y ∈ post, y.nodePubkey ≠ identity
  | [], ⟨_, hy, _⟩ => nomatch hy
  | a :: l, ⟨y, hy, hid⟩ => by
    by_cases hl : ∃ y ∈ l, y.nodePubkey = identity
    · obtain ⟨pre, x, post, rfl, hx, hpost⟩ := exists_last_vote_account hl
      exact ⟨a :: pre, x, post, rfl, hx, hpost⟩
    · have ha : a.nodePubkey = identity := by
        rcases List.mem_cons.1 hy with rfl | hy
        · exact hid
        · exact absurd ⟨y, hy, hid⟩ hl
      exact ⟨[], a, l, rfl, ha, fun y hy hid => hl ⟨y, hy, hid⟩⟩

/-- The value `get_stakes_for_identity` computes for an identity whose last vote
account is `x`. -/
theorem getStakesForIdentity_of_last {voteAccounts : RpcVoteAccountStatus} {identity : String}
    {pre post : List RpcVoteAccountInfo} {x : RpcVoteAccountInfo}
    (hsplit : voteAccounts.current = pre ++ x :: post) (hx : x.nodePubkey = identity)
    (hpost : ∀ y ∈ post, y.nodePubkey ≠ identity) :
    getStakesForIdentity (.value voteAccounts) identity =
      some (.ok
        { peerType := .staked, stakes := x.activatedStake,
          minStakes := (voteAccounts.current.map (·.activatedStake)).min?.getD 0,
          maxStakes := (voteAccounts.current.map (·.activatedStake)).max?.getD 0,
          totalStakes := (voteAccounts.current.map (·.activatedStake)).foldl (· + ·) 0 }) := by
  have hget : (HashMap.ofList (voteAccounts.current.map fun x => (x.nodePubkey, x.activatedStake))).get
      identity = some x.activatedStake := by
    rw [hsplit, List.map_append, List.map_cons, ← hx]
    exact HashMap.get_ofList_of_last (by simpa [hx] using hpost)
  simp only [getStakesForIdentity, hget]

/-! ## The reported stakes -/

/-- **`get_stakes_for_identity` reports the stakes of the identity's last vote
account.**  For every vote-account status and every identity that is the
`node_pubkey` of a current vote account, it returns a staked `IdentityStakes`
whose `stakes` is the `activated_stake` of the last such account: the `HashMap`
keeps the last pair of a key.  That equals the sum over the identity's accounts
exactly when all its earlier accounts have no activated stake.  `min_stakes` and
`max_stakes` bound it, and `total_stakes` is the sum of all activated stakes
modulo `2^64`, so it bounds the stakes too while that sum stays below `2^64`.  On two accounts of one identity with stakes `1` and `2` it
reports `2`, where the sum is `3`. -/
theorem getStakesForIdentity_keeps_last :
    (∀ (voteAccounts : RpcVoteAccountStatus) (identity : String),
      (∃ y ∈ voteAccounts.current, y.nodePubkey = identity) →
      ∃ pre x post, voteAccounts.current = pre ++ x :: post ∧ x.nodePubkey = identity ∧
        (∀ y ∈ post, y.nodePubkey ≠ identity) ∧
        ∃ st, getStakesForIdentity (.value voteAccounts) identity = some (.ok st) ∧
          st.peerType = .staked ∧ st.stakes = x.activatedStake ∧
          (st.stakes.toNat =
              activatedStakeSum (voteAccounts.current.filter (·.nodePubkey = identity)) ↔
            ∀ y ∈ pre, y.nodePubkey = identity → y.activatedStake = 0) ∧
          st.minStakes ≤ st.stakes ∧ st.stakes ≤ st.maxStakes ∧
          st.totalStakes.toNat = activatedStakeSum voteAccounts.current % UInt64.size ∧
          (activatedStakeSum voteAccounts.current < UInt64.size → st.stakes ≤ st.totalStakes)) ∧
    getStakesForIdentity (.value ⟨[⟨"A", 1⟩, ⟨"A", 2⟩]⟩) "A" = some (.ok ⟨.staked, 2, 1, 2, 3⟩) := by
  refine ⟨fun voteAccounts identity hmem => ?_, rfl⟩
  obtain ⟨pre, x, post, hsplit, hx, hpost⟩ := exists_last_vote_account hmem
  have hxcur : x ∈ voteAccounts.current := hsplit ▸ List.mem_append_right pre (.head _)
  have hxmem : x.activatedStake ∈ voteAccounts.current.map (·.activatedStake) :=
    List.mem_map_of_mem _ hxcur
  have htotal : ((voteAccounts.current.map fun y : RpcVoteAccountInfo => y.activatedStake).foldl
      (· + ·) 0).toNat = activatedStakeSum voteAccounts.current % UInt64.size := by
    rw [toNat_foldl_add, UInt64.toNat_zero, Nat.zero_add]
  refine ⟨pre, x, post, hsplit, hx, hpost, _, getStakesForIdentity_of_last hsplit hx hpost, rfl,
    rfl, last_eq_activatedStakeSum_iff hsplit hx hpost, min?_getD_le hxmem, le_max?_getD hxmem,
    htotal, fun hfit => ?_⟩
  rw [le_iff_toNat_le, htotal, Nat.mod_eq_of_lt hfit]
  exact le_activatedStakeSum hxcur

end LiteRpc.Core
