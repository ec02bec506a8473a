import Mathlib.Data.List.Basic

/-!
# `tokio::sync::broadcast`, as the grpc pluggers use it

The pluggers of `cluster-endpoints/src/grpc_stream_utils.rs` push every value
they take from their source into a broadcast channel.  What a receiver of that
channel then sees is the channel's doing, so this file models the channel as
tokio implements it (`tokio/src/sync/broadcast.rs`):

* the ring buffer holds the last `bufferLen` values sent, `bufferLen` being the
  capacity asked for rounded up to a power of two; `channel` panics on a
  capacity of `0` or above `usize::MAX / 2`;
* `send` refuses the value (`SendError`) when no receiver is alive, and never
  waits: a full buffer overwrites its oldest value;
* the channel counts its `Sender`s, tokio's `num_tx`: a clone adds one, a drop
  removes one, and the channel is closed once none is left;
* a receiver reads at its own position `next`; when it has fallen more than
  `bufferLen` values behind, its `recv` reports `Lagged` and jumps to the oldest
  value still held, and once every sender is gone an empty `recv` reports
  `Closed`.

A receiver also carries ghost fields (`start`, `got`, `lagged`) that record
where it subscribed, what it read and whether it ever lagged.  The invariant
`Receiver.Placed` says that **a receiver reads the values sent since it
subscribed, in order and never twice, and all of them as long as it never
lagged**; `send`, `subscribe`, the drop of a receiver, `recv` and the clone and
the drop of a sender all keep it (`Channel.Valid`).
-/

namespace LiteRpc.Tokio

/-- A receiver of a broadcast channel: `next`, the position of the value it reads
next, is tokio's; `start` (where it subscribed), `got` (the values it read) and
`lagged` (whether a `recv` ever skipped values) are ghost fields. -/
structure Receiver (T : Type) where
  next : Nat
  start : Nat
  got : List T
  lagged : Bool

/-- The shared state of a broadcast channel. -/
structure Channel (T : Type) where
  /-- The length of the ring buffer. -/
  bufferLen : Nat
  /-- Every value sent, oldest first: tokio's `tail.pos` is its length, and the
  buffer holds its last `bufferLen` values. -/
  sent : List T
  /-- The receivers, in the order they were made; `none` once dropped. -/
  receivers : List (Option (Receiver T))
  /-- The number of live `Sender`s, tokio's `num_tx`: the channel is closed at `0`. -/
  senders : Nat

/-- What a `recv` answers. -/
inductive RecvOutcome (T : Type) where
  | value (v : T)
  /-- `RecvError::Lagged`, with the number of values skipped. -/
  | lagged (missed : Nat)
  /-- `RecvError::Closed`. -/
  | closed
  /-- Nothing to read yet: `recv().await` waits (`TryRecvError::Empty`). -/
  | pending

variable {T : Type}

/-- The panic of `broadcast::channel(0)`. -/
def capacityCannotBeZero : String := "broadcast channel capacity cannot be zero"

/-- The panic of a capacity above `usize::MAX >> 1`. -/
def capacityExceeded : String := "broadcast channel capacity exceeded usize::MAX / 2"

/-- `broadcast::channel(capacity)`: a channel with the one receiver it hands back,
at index `0`. -/
def channel (capacity : Nat) : Except String (Channel T) :=
  if capacity = 0 then .error capacityCannotBeZero
  else if (UInt64.size - 1) / 2 < capacity then .error capacityExceeded
  else .ok { bufferLen := capacity.nextPowerOfTwo, sent := [],
             receivers := [some ⟨0, 0, [], false⟩], senders := 1 }

/-- The number of live receivers, tokio's `rx_cnt`. -/
def Channel.rxCnt (c : Channel T) : Nat := c.receivers.countP Option.isSome

/-- `Sender::send`: with no receiver alive the value comes back (`SendError`);
otherwise it is written for every receiver, over the oldest value of a full
buffer, and the number of receivers is returned. -/
def Channel.send (c : Channel T) (value : T) : Except T (Channel T × Nat) :=
  if c.rxCnt = 0 then .error value else .ok ({ c with sent := c.sent ++ [value] }, c.rxCnt)

/-- `Sender::subscribe`: a receiver that reads the values sent from now on. -/
def Channel.subscribe (c : Channel T) : Channel T :=
  { c with receivers := c.receivers ++ [some ⟨c.sent.length, c.sent.length, [], false⟩] }

/-- The drop of receiver `i`. -/
def Channel.dropReceiver (c : Channel T) (i : Nat) : Channel T :=
  { c with receivers := c.receivers.set i none }

/-- `Sender::clone`. -/
def Channel.cloneSender (c : Channel T) : Channel T := { c with senders := c.senders + 1 }

/-- The drop of a `Sender`. -/
def Channel.dropSender (c : Channel T) : Channel T := { c with senders := c.senders - 1 }

/-- `Receiver::recv` on the channel `c`: a receiver more than `bufferLen` values
behind the tail lags to the oldest value held; otherwise it reads the value at
`next`, or finds nothing (and, the senders gone, `Closed`). -/
def Receiver.recv (r : Receiver T) (c : Channel T) : RecvOutcome T × Receiver T :=
  if r.next + c.bufferLen < c.sent.length then
    (.lagged (c.sent.length - c.bufferLen - r.next),
      { r with next := c.sent.length - c.bufferLen, lagged := true })
  else
    match c.sent[r.next]? with
    | some v => (.value v, { r with next := r.next + 1, got := r.got ++ [v] })
    | none => (if c.senders = 0 then .closed else .pending, r)

/-- Receiver `i` calls `recv`; a dropped receiver does nothing. -/
def Channel.recv (c : Channel T) (i : Nat) : Channel T :=
  match c.receivers[i]? with
  | some (some r) => { c with receivers := c.receivers.set i (some (r.recv c).2) }
  | _ => c

section Fields

variable (c : Channel T)

@[simp] theorem subscribe_sent : c.subscribe.sent = c.sent := rfl
@[simp] theorem subscribe_bufferLen : c.subscribe.bufferLen = c.bufferLen := rfl
@[simp] theorem dropReceiver_sent (i : Nat) : (c.dropReceiver i).sent = c.sent := rfl
@[simp] theorem cloneSender_sent : c.cloneSender.sent = c.sent := rfl
@[simp] theorem cloneSender_receivers : c.cloneSender.receivers = c.receivers := rfl
@[simp] theorem cloneSender_senders : c.cloneSender.senders = c.senders + 1 := rfl
@[simp] theorem dropSender_sent : c.dropSender.sent = c.sent := rfl
@[simp] theorem dropSender_receivers : c.dropSender.receivers = c.receivers := rfl
@[simp] theorem dropSender_senders : c.dropSender.senders = c.senders - 1 := rfl

@[simp] theorem recv_sent (i : Nat) : (c.recv i).sent = c.sent := by
  unfold Channel.recv
  split <;> rfl

@[simp] theorem recv_bufferLen (i : Nat) : (c.recv i).bufferLen = c.bufferLen := by
  unfold Channel.recv
  split <;> rfl

end Fields

/-! ## Where a receiver stands -/

/-- A receiver stands between where it subscribed and the end of what was sent,
and has read values of that stretch, in order and never twice; all of them, as
long as it never lagged. -/
structure Receiver.Placed (r : Receiver T) (sent : List T) : Prop where
  start_le : r.start ≤ r.next
  next_le : r.next ≤ sent.length
  got_sublist : List.Sublist r.got ((sent.drop r.start).take (r.next - r.start))
  got_eq : r.lagged = false → r.got = (sent.drop r.start).take (r.next - r.start)

/-- Every live receiver of the channel is placed. -/
def Channel.Valid (c : Channel T) : Prop := ∀ r, some r ∈ c.receivers → r.Placed c.sent

section Placed

variable {r : Receiver T} {sent : List T}

theorem window_append (hs : r.start ≤ r.next) (h : r.next ≤ sent.length) (v : T) :
    ((sent ++ [v]).drop r.start).take (r.next - r.start) =
      (sent.drop r.start).take (r.next - r.start) := by
  rw [List.drop_append_of_le_length (by omega), List.take_append_of_le_length (by simp; omega)]

/-- A value sent after a receiver's position leaves what it read in place. -/
theorem Receiver.Placed.append (h : r.Placed sent) (v : T) : r.Placed (sent ++ [v]) where
  start_le := h.start_le
  next_le := by simp only [List.length_append, List.length_singleton]; have := h.next_le; omega
  got_sublist := window_append h.start_le h.next_le v ▸ h.got_sublist
  got_eq hl := window_append h.start_le h.next_le v ▸ h.got_eq hl

theorem Receiver.Placed.recv {c : Channel T} (h : r.Placed c.sent) : (r.recv c).2.Placed c.sent := by
  unfold Receiver.recv
  split
  · next hlag =>
    have := h.start_le
    exact { start_le := by dsimp only; omega
            next_le := by dsimp only; omega
            got_sublist := h.got_sublist.trans (List.take_sublist_take_left _ (by dsimp only; omega))
            got_eq := fun hl => nomatch hl }
  · split
    · next v hv =>
      have hlt : r.next < c.sent.length := (List.getElem?_eq_some_iff.1 hv).1
      have hwin : (c.sent.drop r.start).take (r.next + 1 - r.start) =
          (c.sent.drop r.start).take (r.next - r.start) ++ [v] := by
        rw [show r.next + 1 - r.start = r.next - r.start + 1 by have := h.start_le; omega,
          List.take_succ, List.getElem?_drop, show r.start + (r.next - r.start) = r.next by
            have := h.start_le; omega, hv]
        rfl
      exact { start_le := by dsimp only; have := h.start_le; omega
              next_le := hlt
              got_sublist := hwin ▸ h.got_sublist.append (List.Sublist.refl [v])
              got_eq := fun hl => by rw [hwin, h.got_eq hl] }
    · dsimp only
      exact h

end Placed

section Valid

variable {c : Channel T}

theorem Channel.Valid.send (h : c.Valid) (v : T) : { c with sent := c.sent ++ [v] }.Valid :=
  fun r hr => (h r hr).append v

theorem Channel.Valid.subscribe (h : c.Valid) : c.subscribe.Valid := by
  intro r hr
  rcases List.mem_append.1 hr with hr | hr
  · exact h r hr
  · cases List.mem_singleton.1 hr
    exact { start_le := le_rfl, next_le := le_rfl, got_sublist := List.nil_sublist _,
            got_eq := fun _ => by simp }

theorem Channel.Valid.dropReceiver (h : c.Valid) (i : Nat) : (c.dropReceiver i).Valid := by
  intro r hr
  rcases List.mem_or_eq_of_mem_set hr with hr | hr
  · exact h r hr
  · cases hr

theorem Channel.Valid.recv (h : c.Valid) (i : Nat) : (c.recv i).Valid := by
  unfold Channel.recv
  split
  · next r hr =>
    intro r' hr'
    rcases List.mem_or_eq_of_mem_set hr' with hr' | hr'
    · exact h r' hr'
    · cases hr'
      exact (h r (List.getElem?_mem hr)).recv
  · exact h

theorem Channel.Valid.cloneSender (h : c.Valid) : c.cloneSender.Valid := h

theorem Channel.Valid.dropSender (h : c.Valid) : c.dropSender.Valid := h

end Valid

/-! ## Which receiver is where -/

section Receivers

variable (c : Channel T)

@[simp] theorem subscribe_senders : c.subscribe.senders = c.senders := rfl
@[simp] theorem dropReceiver_senders (i : Nat) : (c.dropReceiver i).senders = c.senders := rfl

@[simp] theorem recv_senders (i : Nat) : (c.recv i).senders = c.senders := by
  unfold Channel.recv
  split <;> rfl

@[simp] theorem Receiver.recv_start (r : Receiver T) : (r.recv c).2.start = r.start := by
  unfold Receiver.recv
  split
  · rfl
  · split <;> rfl

theorem rxCnt_pos {i : Nat} {r : Receiver T} (h : c.receivers[i]? = some (some r)) :
    0 < c.rxCnt :=
  List.countP_pos_iff.2 ⟨_, List.getElem?_mem h, rfl⟩

theorem getElem?_subscribe {i : Nat} (h : i < c.receivers.length) :
    c.subscribe.receivers[i]? = c.receivers[i]? :=
  List.getElem?_append_left h

theorem getElem?_dropReceiver {i j : Nat} {r : Receiver T}
    (h : (c.dropReceiver i).receivers[j]? = some (some r)) : c.receivers[j]? = some (some r) := by
  rw [Channel.dropReceiver, List.getElem?_set] at h
  split_ifs at h
  · cases h
  · exact h

/-- A `recv` moves the receiver it is called on, and only that one. -/
theorem getElem?_recv {i j : Nat} {r' : Receiver T}
    (h : (c.recv i).receivers[j]? = some (some r')) :
    ∃ r, c.receivers[j]? = some (some r) ∧ r'.start = r.start := by
  unfold Channel.recv at h
  split at h
  · next r hr =>
    rw [List.getElem?_set] at h
    split_ifs at h with hij
    · subst hij
      cases h
      exact ⟨r, hr, Receiver.recv_start c r⟩
    · exact ⟨r', h, rfl⟩
  · exact ⟨r', h, rfl⟩

@[simp] theorem length_subscribe : c.subscribe.receivers.length = c.receivers.length + 1 := by
  simp [Channel.subscribe]

@[simp] theorem length_dropReceiver (i : Nat) :
    (c.dropReceiver i).receivers.length = c.receivers.length :=
  List.length_set _ _ _

@[simp] theorem length_recv (i : Nat) : (c.recv i).receivers.length = c.receivers.length := by
  unfold Channel.recv
  split
  · exact List.length_set _ _ _
  · rfl

end Receivers

end LiteRpc.Tokio
