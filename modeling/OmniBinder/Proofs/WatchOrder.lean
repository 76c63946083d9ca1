/-
Module: OmniBinder.Proofs.WatchOrder
Purpose: The order in which the notifications of a watch reach its callback. The watch groups found
  through the indices are those a scan would find, and the two sides of a watch request check it for
  overlapping filters alike.
Trusted boundary: none
Main exports: notifications, watch_matching_exact
-/
import OmniBinder.Runtime.ServiceWatches
import OmniBinder.Proofs.RecordLayout
import OmniBinder.ServiceManager.Handlers

namespace OmniBinder

open List ServiceWatchRequest

/-- The notifications of a watch, in the order in which they came in. -/
def notifications (serial : Nat) (history : List WatchEntry) : List (Nat × ServiceWatchEvent) :=
  (history.filterMap fun
    | .notified watch number event => if watch = serial then some (number, event) else none
    | _ => none).reverse

/-- The notifications that the callback of a watch was called for, in the order of the calls. -/
def invocations (serial : Nat) (history : List WatchEntry) : List (Nat × ServiceWatchEvent) :=
  (history.filterMap fun
    | .invoked watch number _ _ event => if watch = serial then some (number, event) else none
    | _ => none).reverse

variable {serial : Nat} {history : List WatchEntry}

theorem notifications_notified (watch number : Nat) (event : ServiceWatchEvent) :
    notifications serial (.notified watch number event :: history) =
      notifications serial history ++ if watch = serial then [(number, event)] else [] := by
  unfold notifications
  by_cases h : watch = serial <;> simp [h]

theorem invocations_invoked (watch number callback : Nat) (id : UInt64) (event : ServiceWatchEvent) :
    invocations serial (.invoked watch number callback id event :: history) =
      invocations serial history ++ if watch = serial then [(number, event)] else [] := by
  unfold invocations
  by_cases h : watch = serial <;> simp [h]

/-- What the loops in progress still hold for a watch, that of the innermost first. -/
def queued (serial : Nat) (calls : List WatchCall) : List (Nat × ServiceWatchEvent) :=
  calls.flatMap fun
    | .replay watch _ _ rest => if watch = serial then rest else []
    | _ => []

theorem queued_replay (watch : Nat) (id : UInt64) (callback : Nat)
    (rest : List (Nat × ServiceWatchEvent)) (calls : List WatchCall) :
    queued serial (.replay watch id callback rest :: calls) =
      (if watch = serial then rest else []) ++ queued serial calls :=
  flatMap_cons

variable {id : UInt64} {sub : ServiceWatchSubscription}

namespace WatchClient

/-! ### The invariant -/

/-- What a watch was told and what the loops in progress hold for it. -/
def line (s : WatchClient) (serial : Nat) : List (Nat × ServiceWatchEvent) :=
  invocations serial s.history ++ queued serial s.calls

/-- A watch is registered under an id. -/
def Has (s : WatchClient) (id : UInt64) (sub : ServiceWatchSubscription) : Prop :=
  s.serviceWatches[id]? = some sub

structure InOrder (s : WatchClient) : Prop where
  told : ∀ serial, (s.line serial).Sublist (notifications serial s.history)
  waiting : ∀ id sub, s.Has id sub →
    (s.line sub.serial ++ sub.pending).Sublist (notifications sub.serial s.history)
  settled : ∀ id sub, s.Has id sub →
    if sub.active then sub.pending = [] else queued sub.serial s.calls = []
  owner : ∀ id id' sub sub', s.Has id sub → s.Has id' sub' → sub.serial = sub'.serial → id = id'
  known : ∀ id sub, s.Has id sub → sub.serial < s.nextSerial
  fresh : ∀ serial, s.nextSerial ≤ serial → s.line serial = []
  numbered : ∀ serial, (notifications serial s.history).Pairwise (fun earlier later => earlier.1 < later.1) ∧
    ∀ entry ∈ notifications serial s.history, entry.1 < s.arrived

theorem inOrder_init : WatchClient.init.InOrder where
  told _ := nil_sublist _
  waiting _ _ h := by cases h
  settled _ _ h := by cases h
  owner _ _ _ _ h := by cases h
  known _ _ h := by cases h
  fresh _ _ := rfl
  numbered _ := ⟨List.Pairwise.nil, nofun⟩

variable {s s' : WatchClient}

/-- Watches may go, every line may lose entries, and nothing else changes that the invariant is about. -/
theorem InOrder.part (h : s.InOrder) (hwatches : ∀ id sub, s'.Has id sub → s.Has id sub)
    (hserial : s.nextSerial ≤ s'.nextSerial) (hline : ∀ a, (s'.line a).Sublist (s.line a))
    (hqueued : ∀ a, queued a s.calls = [] → queued a s'.calls = [])
    (hnotified : ∀ a, notifications a s'.history = notifications a s.history)
    (harrived : s.arrived ≤ s'.arrived) : s'.InOrder := by
  refine ⟨fun a => ?_, fun a sub hsub => ?_, fun a sub hsub => ?_, fun a a' sub sub' hsub hsub' => ?_,
    fun a sub hsub => ?_, fun a hle => ?_, fun a => ?_⟩
  · rw [hnotified]
    exact (hline a).trans (h.told a)
  · rw [hnotified]
    exact ((hline _).append_right _).trans (h.waiting a sub (hwatches _ _ hsub))
  · have hsettled := h.settled a sub (hwatches _ _ hsub)
    split_ifs at hsettled ⊢
    · exact hsettled
    · exact hqueued _ hsettled
  · exact h.owner a a' sub sub' (hwatches _ _ hsub) (hwatches _ _ hsub')
  · exact (h.known a sub (hwatches _ _ hsub)).trans_le hserial
  · exact sublist_nil.1 (h.fresh a (hserial.trans hle) ▸ hline a)
  · rw [hnotified]
    exact ⟨(h.numbered a).1, fun entry hentry => ((h.numbered a).2 entry hentry).trans_le harrived⟩

/-- The state differs in nothing the invariant is about. -/
theorem InOrder.congr (h : s.InOrder) (hwatches : s'.serviceWatches = s.serviceWatches)
    (hserial : s.nextSerial ≤ s'.nextSerial) (harrived : s.arrived ≤ s'.arrived)
    (hqueued : ∀ serial, queued serial s'.calls = queued serial s.calls)
    (hinvoked : ∀ serial, invocations serial s'.history = invocations serial s.history)
    (hnotified : ∀ serial, notifications serial s'.history = notifications serial s.history) :
    s'.InOrder := by
  refine h.part (fun id sub hsub => ?_) hserial (fun a => ?_) (fun a hnone => ?_) hnotified harrived
  · rwa [Has, ← hwatches]
  · rw [line, line, hqueued, hinvoked]
  · rw [hqueued, hnone]

theorem InOrder.returned (h : s.InOrder) (id : UInt64) (error : Option ErrorCode) :
    (s.record (.returned id error)).InOrder :=
  h.congr rfl le_rfl le_rfl (fun _ => rfl) (fun _ => rfl) fun _ => rfl

theorem InOrder.eraseWatch (h : s.InOrder) (id : UInt64) : (s.eraseWatch id).InOrder :=
  h.part (fun _ _ hsub => (Table.of_erase hsub).2) le_rfl (fun _ => .refl _) (fun _ h => h)
    (fun _ => rfl) le_rfl

/-- A watch changes, and is registered with a serial number that no other watch has. -/
theorem InOrder.setWatch (h : s.InOrder) (id : UInt64) (sub : ServiceWatchSubscription)
    (hwaiting : (s.line sub.serial ++ sub.pending).Sublist (notifications sub.serial s.history))
    (hsettled : if sub.active then sub.pending = [] else queued sub.serial s.calls = [])
    (howner : ∀ id' sub', s.Has id' sub' → sub'.serial = sub.serial → id' = id)
    (hknown : sub.serial < s.nextSerial) : (s.setWatch id sub).InOrder := by
  refine ⟨h.told, fun a new hnew => ?_, fun a new hnew => ?_, fun a a' new new' hnew hnew' heq => ?_,
    fun a new hnew => ?_, h.fresh, h.numbered⟩
  · rcases Table.of_insert hnew with ⟨rfl, rfl⟩ | ⟨-, hnew⟩
    · exact hwaiting
    · exact h.waiting a new hnew
  · rcases Table.of_insert hnew with ⟨rfl, rfl⟩ | ⟨-, hnew⟩
    · exact hsettled
    · exact h.settled a new hnew
  · rcases Table.of_insert hnew with ⟨ha, hsub⟩ | ⟨-, hold⟩ <;>
      rcases Table.of_insert hnew' with ⟨ha', hsub'⟩ | ⟨-, hold'⟩
    · exact ha.trans ha'.symm
    · exact ha.trans (howner a' new' hold' (hsub ▸ heq.symm)).symm
    · exact (howner a new hold (hsub' ▸ heq)).trans ha'.symm
    · exact h.owner a a' new new' hold hold' heq
  · rcases Table.of_insert hnew with ⟨rfl, rfl⟩ | ⟨-, hnew⟩
    · exact hknown
    · exact h.known a new hnew

/-! ### The events -/

theorem InOrder.watchServices (h : s.InOrder) (requests : List ServiceWatchRequest)
    (callback : Option Nat) (ready : Bool) : (s.watchServices requests callback ready).InOrder := by
  unfold WatchClient.watchServices
  cases callback with
  | none => exact h.returned ..
  | some callback =>
    by_cases hvalid : (!validWatchRequests requests) = true
    · simp only [if_pos hvalid]
      exact h.returned ..
    simp only [if_neg hvalid]
    have hnew : ∀ id, (({ s with nextWatchId := id + 1, nextSerial := s.nextSerial + 1 } :
        WatchClient).setWatch id ⟨s.nextSerial, requests, callback, false, []⟩).InOrder := by
      intro id
      have hnothing : s.line s.nextSerial = [] := h.fresh _ (le_refl _)
      refine InOrder.setWatch ?_ _ _ ?_ ?_ ?_ (Nat.lt_succ_self _)
      · exact h.congr rfl (Nat.le_succ _) le_rfl (fun _ => rfl) (fun _ => rfl) fun _ => rfl
      · rw [append_nil]
        exact h.told _
      · exact (append_eq_nil_iff.1 hnothing).2
      · exact fun a sub hsub heq => absurd (heq ▸ h.known a sub hsub) (lt_irrefl _)
    cases s.allocWatchId with
    | none => exact h
    | some id =>
      split_ifs
      · exact (hnew id).congr rfl le_rfl le_rfl (fun _ => rfl) (fun _ => rfl) fun _ => rfl
      · exact (hnew id).returned ..

/-- The event of a loop goes to the callback, and the rest stays with the loop. -/
theorem line_replay (serial number callback : Nat) (id : UInt64) (event : ServiceWatchEvent)
    (rest : List (Nat × ServiceWatchEvent)) (a : Nat) :
    ((s.record (.invoked serial number callback id event)).suspend
        (.replay serial id callback rest)).line a =
      invocations a s.history ++ ((if serial = a then (number, event) :: rest else []) ++
        queued a s.calls) := by
  simp only [line, record, suspend, invocations_invoked, queued_replay]
  split_ifs <;> simp

/-- A loop in progress goes on. What it holds is told, stays with it or is given up. -/
theorem InOrder.replay (h : s.InOrder) {serial callback : Nat}
    {rest : List (Nat × ServiceWatchEvent)} {calls : List WatchCall}
    (hcalls : s.calls = .replay serial id callback rest :: calls) :
    (({ s with calls } : WatchClient).replay serial id callback rest).InOrder := by
  have hline : ∀ a, s.line a =
      invocations a s.history ++ ((if serial = a then rest else []) ++ queued a calls) := fun a => by
    rw [line, hcalls, queued_replay]
  have hgiven : ∀ entry, entry = .returned id none →
      (({ s with calls } : WatchClient).record entry).InOrder := by
    rintro entry rfl
    refine h.part (fun _ _ hhas => hhas) le_rfl (fun a => ?_) (fun a hnone => ?_) (fun _ => rfl) le_rfl
    · rw [hline]
      exact (sublist_append_right _ _).append_left _
    · rw [hcalls, queued_replay] at hnone
      exact (append_eq_nil_iff.1 hnone).2
  cases rest with
  | nil => exact hgiven _ rfl
  | cons first rest =>
    unfold WatchClient.replay
    split_ifs
    · refine h.part (fun _ _ hhas => hhas) le_rfl (fun a => ?_) (fun a hnone => ?_) (fun _ => rfl) le_rfl
      · rw [line_replay, hline]
      · rw [hcalls, queued_replay] at hnone
        simp only [record, suspend, queued_replay]
        split_ifs at hnone ⊢ <;> simp_all
    · exact hgiven _ rfl

/-- An active watch with nothing pending is told more, or a loop holds more for it. -/
theorem InOrder.extend (h : s.InOrder) (hsub : s.Has id sub) (hactive : sub.active = true)
    {extra : List (Nat × ServiceWatchEvent)}
    (hnew : (s.line sub.serial ++ extra).Sublist (notifications sub.serial s.history))
    (hline : ∀ a, s'.line a = s.line a ++ if sub.serial = a then extra else [])
    (hqueued : ∀ a, sub.serial ≠ a → queued a s'.calls = queued a s.calls)
    (hwatches : s'.serviceWatches = s.serviceWatches) (hserial : s'.nextSerial = s.nextSerial)
    (harrived : s'.arrived = s.arrived)
    (hnotified : ∀ a, notifications a s'.history = notifications a s.history) : s'.InOrder := by
  have hold : ∀ a new, s'.Has a new → s.Has a new := fun a new hhas => by rwa [Has, ← hwatches]
  have hsame : ∀ a new, s'.Has a new → sub.serial = new.serial → new = sub := by
    intro a new hhas heq
    have hhas := hold a new hhas
    obtain rfl := h.owner id a sub new hsub hhas heq
    exact Option.some.inj (hhas.symm.trans hsub)
  have hnone : sub.pending = [] := by
    have hsettled := h.settled id sub hsub
    rwa [if_pos hactive] at hsettled
  refine ⟨fun a => ?_, fun a new hhas => ?_, fun a new hhas => ?_, fun a a' new new' hhas hhas' => ?_,
    fun a new hhas => ?_, fun a hle => ?_, fun a => ?_⟩
  · rw [hline, hnotified]
    split_ifs with ha
    · exact ha ▸ hnew
    · rw [append_nil]
      exact h.told a
  · rw [hline, hnotified]
    split_ifs with ha
    · rw [hsame a new hhas ha, hnone, append_nil]
      exact hnew
    · rw [append_nil]
      exact h.waiting a new (hold a new hhas)
  · by_cases ha : sub.serial = new.serial
    · rw [hsame a new hhas ha, if_pos hactive, hnone]
    · rw [hqueued _ ha]
      exact h.settled a new (hold a new hhas)
  · exact h.owner a a' new new' (hold a new hhas) (hold a' new' hhas')
  · rw [hserial]
    exact h.known a new (hold a new hhas)
  · rw [hserial] at hle
    have hne : sub.serial ≠ a := fun ha => absurd (h.known id sub hsub) (not_lt.2 (ha ▸ hle))
    rw [hline, if_neg hne, append_nil]
    exact h.fresh a hle
  · rw [hnotified, harrived]
    exact h.numbered a

/-- What is pending for a watch is handed to a loop, and the watch becomes active. -/
theorem InOrder.enqueue (h : s.InOrder) (hsub : s.Has id sub) :
    ((s.setWatch id { sub with active := true, pending := [] }).suspend
      (.replay sub.serial id sub.callback sub.pending)).InOrder := by
  -- a watch that has something pending is not active, so no other loop holds anything for it
  have hside : queued sub.serial s.calls = [] ∨ sub.pending = [] := by
    have hsettled := h.settled id sub hsub
    split_ifs at hsettled
    · exact .inr hsettled
    · exact .inl hsettled
  have hset : (s.setWatch id { sub with active := true, pending := [] }).InOrder := by
    refine h.setWatch _ _ ?_ rfl (fun a sub' hsub' heq => ?_) (h.known id sub hsub)
    · rw [append_nil]
      exact h.told _
    · exact h.owner a id sub' sub hsub' hsub heq
  have hhas : (s.setWatch id { sub with active := true, pending := [] }).Has id
      { sub with active := true, pending := [] } :=
    (Table.getElem?_insert _ _ _ _).trans (if_pos rfl)
  refine hset.extend hhas rfl (h.waiting id sub hsub) (fun a => ?_) (fun a ha => ?_) rfl rfl rfl fun _ => rfl
  · simp only [line, suspend, queued_replay, WatchClient.setWatch]
    by_cases ha : sub.serial = a
    · subst ha
      rcases hside with hnone | hnone <;> simp [hnone]
    · simp [ha]
  · simp only [suspend, queued_replay, if_neg ha, nil_append, WatchClient.setWatch]

theorem InOrder.activate (h : s.InOrder) (id : UInt64) : (s.activate id).InOrder := by
  unfold WatchClient.activate
  split
  · exact h.returned ..
  next sub hsub => exact (h.enqueue hsub).replay rfl

/-- While a loop that replays still holds events of a watch, no notification comes in for the watch and
    it is not sent again. -/
def undisturbed (s : WatchClient) : WatchClientEvent → Prop
  | .notify payload =>
    ∀ notified ∈ decodeServiceWatchNotify.run payload, ∀ sub ∈ s.serviceWatches[notified.1]?,
      sub.active = true → queued sub.serial s.calls = []
  | .restoreServiceWatch id =>
    ∀ sub ∈ s.serviceWatches[id]?, queued sub.serial s.calls = []
  | _ => True

section
variable (h : s.InOrder)
include h

theorem InOrder.restoreServiceWatch
    (hcalm : s.undisturbed (.restoreServiceWatch id)) : (s.restoreServiceWatch id).InOrder := by
  unfold WatchClient.restoreServiceWatch
  split
  · exact h
  next sub hsub =>
    have hset : (s.setWatch id { sub with active := false, pending := [] }).InOrder := by
      refine h.setWatch _ _ ?_ (hcalm sub hsub) (fun a sub' hsub' heq => ?_) (h.known id sub hsub)
      · rw [append_nil]
        exact h.told _
      · exact h.owner a id sub' sub hsub' hsub heq
    exact hset.congr rfl le_rfl le_rfl (fun _ => rfl) (fun _ => rfl) fun _ => rfl

/-- A notification comes in, and is not yet told nor pending. -/
theorem InOrder.notified (watch : Nat) (event : ServiceWatchEvent) :
    (({ s with arrived := s.arrived + 1 } : WatchClient).record
      (.notified watch s.arrived event)).InOrder := by
  have hgrown : ∀ a, (notifications a s.history).Sublist
      (notifications a (.notified watch s.arrived event :: s.history)) := fun a => by
    rw [notifications_notified]
    exact sublist_append_left _ _
  refine ⟨fun a => (h.told a).trans (hgrown a), fun a sub hsub => (h.waiting a sub hsub).trans (hgrown _),
    h.settled, h.owner, h.known, h.fresh, fun serial => ?_⟩
  have hold := h.numbered serial
  rw [record, notifications_notified]
  split_ifs
  · refine ⟨pairwise_append.2 ⟨hold.1, pairwise_singleton _ _, ?_⟩, ?_⟩
    · intro entry hentry new hnew
      rw [mem_singleton.1 hnew]
      exact hold.2 entry hentry
    · intro entry hentry
      rcases mem_append.1 hentry with hentry | hentry
      · exact Nat.lt_succ_of_lt (hold.2 entry hentry)
      · rw [mem_singleton.1 hentry]
        exact Nat.lt_succ_self _
  · rw [append_nil]
    exact ⟨hold.1, fun entry hentry => Nat.lt_succ_of_lt (hold.2 entry hentry)⟩

/-- A notification of an active watch for which no loop holds anything is told. -/
theorem InOrder.invoked (hsub : s.Has id sub) (hactive : sub.active = true)
    (hqueued : queued sub.serial s.calls = []) {number : Nat} {event : ServiceWatchEvent}
    (hnew : (s.line sub.serial ++ [(number, event)]).Sublist (notifications sub.serial s.history)) :
    (s.record (.invoked sub.serial number sub.callback id event)).InOrder := by
  refine h.extend hsub hactive hnew (fun a => ?_) (fun _ _ => rfl) rfl rfl rfl fun _ => rfl
  simp only [line, record, invocations_invoked]
  by_cases ha : sub.serial = a
  · subst ha
    simp [hqueued]
  · simp [ha]

theorem InOrder.handleServiceWatchNotify {payload : Bytes}
    (hcalm : s.undisturbed (.notify payload)) : (s.handleServiceWatchNotify payload).InOrder := by
  unfold WatchClient.handleServiceWatchNotify
  split
  · exact h
  next id event hdecoded =>
    dsimp only
    split
    · exact h.congr rfl le_rfl (Nat.le_succ _) (fun _ => rfl) (fun _ => rfl) fun _ => rfl
    next sub hsub =>
      have hnotified := h.notified sub.serial event
      have hlast : ∀ l, l.Sublist (notifications sub.serial s.history) →
          (l ++ [(s.arrived, event)]).Sublist
            (notifications sub.serial (.notified sub.serial s.arrived event :: s.history)) := by
        intro l hl
        rw [notifications_notified, if_pos rfl]
        exact hl.append_right _
      split_ifs with hactive
      · exact hnotified.invoked hsub hactive (hcalm _ hdecoded sub hsub hactive) (hlast _ (h.told _))
      have hsettled := h.settled id sub hsub
      rw [if_neg hactive] at hsettled
      refine hnotified.setWatch _ _ ?_ ?_ (fun a sub' hsub' heq => ?_) (h.known id sub hsub)
      · rw [← append_assoc]
        exact hlast _ (h.waiting id sub hsub)
      · rw [if_neg hactive]
        exact hsettled
      · exact h.owner a id sub' sub hsub' hsub heq

theorem InOrder.replied (reply : Reply) : (s.replied reply).InOrder := by
  unfold WatchClient.replied
  split
  next id calls hcalls =>
    have hpopped : ({ s with calls } : WatchClient).InOrder :=
      h.congr rfl le_rfl le_rfl (fun a => by rw [hcalls]; rfl) (fun _ => rfl) fun _ => rfl
    cases reply with
    | failed | malformed => exact (hpopped.eraseWatch id).returned ..
    | answered accepted =>
      cases accepted with
      | false => exact (hpopped.eraseWatch id).returned ..
      | true => exact hpopped.activate id
  next id calls hcalls =>
    have hpopped : ({ s with calls } : WatchClient).InOrder :=
      h.congr rfl le_rfl le_rfl (fun a => by rw [hcalls]; rfl) (fun _ => rfl) fun _ => rfl
    cases reply with
    | failed | malformed => exact hpopped.returned ..
    | answered accepted =>
      cases accepted with
      | false => exact hpopped.returned ..
      | true => exact hpopped.activate id
  · exact h

theorem InOrder.step {event : WatchClientEvent} (hcalm : s.undisturbed event) :
    (s.step event).InOrder := by
  cases event with
  | watchServices requests callback ready => exact h.watchServices requests callback ready
  | unwatchServices id =>
    simp only [WatchClient.step, WatchClient.unwatchServices]
    split_ifs
    · exact h.returned ..
    · exact (h.eraseWatch id).returned ..
  | restoreServiceWatch id => exact h.restoreServiceWatch hcalm
  | replied reply => exact h.replied reply
  | callbackReturned =>
    simp only [WatchClient.step, WatchClient.callbackReturned]
    split
    next hcalls => exact h.replay hcalls
    · exact h
  | notify payload => exact h.handleServiceWatchNotify hcalm

end

/-! ### The callbacks of a run -/

instance (s : WatchClient) (event : WatchClientEvent) : Decidable (s.undisturbed event) := by
  unfold undisturbed
  split <;> infer_instance

/-- As long as no notification of an active watch comes in and the watch is not sent again while a loop
    still holds events for it, every callback is called in the order of the notifications, for each at
    most once. -/
theorem callbacks_follow_notifications (events : List WatchClientEvent)
    (hcalm : Machine.RunsUnder WatchClient.step undisturbed WatchClient.init events) (serial : Nat) :
    let s := Machine.run WatchClient.step WatchClient.init events
    (invocations serial s.history).Sublist (notifications serial s.history) ∧
      (invocations serial s.history).Pairwise fun earlier later => earlier.1 < later.1 := by
  intro s
  have horder : s.InOrder := Machine.run_invariant (P := InOrder)
    (fun _ _ h hcalm => h.step hcalm) hcalm inOrder_init
  have hpart : (invocations serial s.history).Sublist (notifications serial s.history) :=
    (sublist_append_left _ _).trans (horder.told serial)
  exact ⟨hpart, (horder.numbered serial).1.sublist hpart⟩

/-- The payload of a notification of the ServiceManager. -/
def watchNotification (id : UInt64) (instanceId : Bytes) (online : Bool) : Bytes :=
  (((ServiceManager.Outgoing.serviceWatchNotify id ⟨[1], [2], instanceId⟩ online).payload
    .succeeds).getD Buffer.init).bytes

/-- Two notifications overtake the reply and are replayed when it has come in. The third one comes in
    after the loop. -/
theorem replayed_then_direct :
    let events : List WatchClientEvent :=
      [.watchServices [⟨[1], [], []⟩] (some 7) true, .notify (watchNotification 1 [3] true),
        .notify (watchNotification 1 [4] true), .replied (.answered true), .callbackReturned,
        .callbackReturned, .notify (watchNotification 1 [3] false)]
    let s := Machine.run WatchClient.step WatchClient.init events
    invocations 0 s.history = notifications 0 s.history ∧
      (notifications 0 s.history).length = 3 ∧
      (invocations 0 s.history).Pairwise fun earlier later => earlier.1 < later.1 := by
  intro events s
  have hcalm : Machine.RunsUnder WatchClient.step undisturbed WatchClient.init events := by
    decide +kernel
  have hlength : (invocations 0 s.history).length = 3 ∧ (notifications 0 s.history).length = 3 := by
    decide +kernel
  obtain ⟨hpart, hordered⟩ := callbacks_follow_notifications events hcalm 0
  exact ⟨hpart.eq_of_length (hlength.1.trans hlength.2.symm), hlength.2, hordered⟩

/-- The callback polls when it is called for the first of two pending notifications. The third one goes
    to the callback before the second. -/
theorem nested_notification_overtakes :
    let events : List WatchClientEvent :=
      [.watchServices [⟨[1], [], []⟩] (some 7) true, .notify (watchNotification 1 [3] true),
        .notify (watchNotification 1 [4] true), .replied (.answered true),
        .notify (watchNotification 1 [4] false), .callbackReturned, .callbackReturned]
    let s := Machine.run WatchClient.step WatchClient.init events
    notifications 0 s.history =
        [(0, ⟨⟨[1], [2], [3]⟩, true⟩), (1, ⟨⟨[1], [2], [4]⟩, true⟩), (2, ⟨⟨[1], [2], [4]⟩, false⟩)] ∧
      invocations 0 s.history =
        [(0, ⟨⟨[1], [2], [3]⟩, true⟩), (2, ⟨⟨[1], [2], [4]⟩, false⟩),
          (1, ⟨⟨[1], [2], [4]⟩, true⟩)] := by
  decide +kernel

end WatchClient

/-- The fields as the client writes them for the ServiceManager. -/
def ServiceWatchRequest.layout (request : ServiceWatchRequest) : Layout :=
  .join [.text request.serviceName, .text request.hostId, .text request.instanceId]

/-- What both sides ask of the fields. -/
structure ServiceWatchRequest.WithinLimits (request : ServiceWatchRequest) : Prop where
  named : request.serviceName ≠ []
  serviceName_le : request.serviceName.length ≤ maxServiceNameLength
  hostId_le : request.hostId.length ≤ maxServiceNameLength
  instanceId_le : request.instanceId.length ≤ maxServiceNameLength

/-- The filter that the ServiceManager makes of a request. -/
def ServiceWatchRequest.filter (request : ServiceWatchRequest) : ServiceManager.ServiceWatchFilter :=
  ⟨request.serviceName, request.hostId, request.instanceId⟩

namespace ServiceManager

/-! ### Operations -/

inductive WatchOperation where
  | subscribe (fd : Int) (watchId : UInt64) (filters : List ServiceWatchFilter)
  | unsubscribe (fd : Int) (watchId : UInt64)
  | removeSubscriber (fd : Int)

def WatchTables.perform (w : WatchTables) : WatchOperation → WatchTables
  | .subscribe fd watchId filters => (w.subscribe fd watchId filters).2
  | .unsubscribe fd watchId => (w.unsubscribe fd watchId).2
  | .removeSubscriber fd => w.removeSubscriber fd

theorem WatchTables.indexed_perform {w : WatchTables} (h : w.Indexed) (operation : WatchOperation) :
    (w.perform operation).Indexed := by
  cases operation with
  | subscribe fd watchId filters => exact indexed_subscribe h fd watchId filters
  | unsubscribe fd watchId => exact indexed_unsubscribe h fd watchId
  | removeSubscriber fd => exact (unsubscribe_all h fd _).1

theorem WatchTables.indexed_run (operations : List WatchOperation) :
    (operations.foldl perform init).Indexed :=
  List.foldlRecOn operations perform indexed_init fun _ h operation _ => indexed_perform h operation

/-- A group is found once, under its own key. -/
theorem WatchTables.nodup_matching {w : WatchTables} (h : w.Indexed) (identity : ServiceIdentity) :
    (w.matching identity).Nodup := by
  refine List.Pairwise.filterMap _ ?_ (SetIndex.nodup_values w.serviceIndex identity.name)
  rintro ⟨fd, watchId⟩ ⟨fd', watchId'⟩ hne group hgroup _ hgroup' rfl
  obtain ⟨hfd, hid⟩ := h.stored_under (Option.filter_eq_some_iff.mp hgroup).1
  obtain ⟨hfd', hid'⟩ := h.stored_under (Option.filter_eq_some_iff.mp hgroup').1
  exact hne (congrArg₂ WatchKey.mk (hfd.symm.trans hfd') (hid.symm.trans hid'))

/-! ### Overlapping filters -/

variable {a b : ServiceWatchFilter}

theorem matches_iff {identity : ServiceIdentity} : a.matches identity = true ↔
      a.serviceName = identity.name ∧ (a.instanceId = [] ∨ a.instanceId = identity.instanceId) := by
  unfold ServiceWatchFilter.matches
  split_ifs with hname hinstance
  · simp [hname]
  · simp_all
  · simp only [Bool.not_eq_true', isEmpty_eq_false_iff, not_and, not_not] at hname hinstance
    exact iff_of_true rfl ⟨hname, or_iff_not_imp_left.mpr hinstance⟩

/-- Two filters overlap exactly when some instance is matched by both. -/
theorem overlaps_iff : a.overlaps b = true ↔
    ∃ identity, a.matches identity = true ∧ b.matches identity = true := by
  simp only [matches_iff, ServiceWatchFilter.overlaps]
  split_ifs with hname hinstance
  · refine iff_of_false (by simp) ?_
    rintro ⟨identity, ⟨ha, -⟩, hb, -⟩
    exact hname (ha.trans hb.symm)
  · refine iff_of_false (by simp) ?_
    rintro ⟨identity, ⟨-, ha⟩, -, hb⟩
    simp only [Bool.not_eq_true', isEmpty_eq_false_iff] at hinstance
    exact hinstance.2.2 ((ha.resolve_left hinstance.1).trans (hb.resolve_left hinstance.2.1).symm)
  · refine iff_of_true rfl ?_
    simp only [Bool.not_eq_true', isEmpty_eq_false_iff, not_and_or, not_not] at hname hinstance
    -- the instance of the filter that names one
    by_cases ha : a.instanceId = []
    · exact ⟨⟨a.serviceName, [], b.instanceId⟩, ⟨rfl, .inl ha⟩, hname.symm, .inr rfl⟩
    · refine ⟨⟨a.serviceName, [], a.instanceId⟩, ⟨rfl, .inr rfl⟩, hname.symm, ?_⟩
      exact (hinstance.resolve_left ha).imp id Eq.symm

theorem overlaps_comm (a b : ServiceWatchFilter) : a.overlaps b = b.overlaps a := by
  rw [Bool.eq_iff_iff, overlaps_iff, overlaps_iff]
  exact exists_congr fun identity => and_comm

/-- The loop of the ServiceManager over the filters of a request that are within the limits. -/
theorem readWatchFilters_isSome {requests : List ServiceWatchRequest}
    (hlimits : ∀ request ∈ requests, request.WithinLimits) (filters : List ServiceWatchFilter)
    (rest : Bytes) :
    (readWatchFilters requests.length filters
        ((Layout.join (requests.map layout)).wire ++ rest)).isSome = true ↔
      (∀ filter ∈ filters, ∀ request ∈ requests, filter.overlaps request.filter = false) ∧
        requests.Pairwise fun earlier later => earlier.filter.overlaps later.filter = false := by
  induction requests generalizing filters with
  | nil => simp [readWatchFilters, Pure.pure, View.pure]
  | cons request requests ih =>
    have hlimit := hlimits request mem_cons_self
    have hlater := fun other hother => hlimits other (mem_cons_of_mem _ hother)
    have hshort : ∀ {text : Bytes}, text.length ≤ maxServiceNameLength →
        ¬ text.length > 2 ^ 32 - 5 := by
      intro text htext
      simp only [maxServiceNameLength] at htext
      omega
    have hbounds : ¬ (request.serviceName.isEmpty = true ∨
        request.serviceName.length > maxServiceNameLength ∨
        request.hostId.length > maxServiceNameLength ∨
        request.instanceId.length > maxServiceNameLength) := by
      simp [hlimit.named, hlimit.serviceName_le, hlimit.hostId_le, hlimit.instanceId_le]
    simp only [length_cons, readWatchFilters, map_cons, layout,
      Layout.join, append_nil, append_assoc]
    rw [View.bind_of_eq_some (reads_text (hshort hlimit.serviceName_le) _),
      View.bind_of_eq_some (reads_text (hshort hlimit.hostId_le) _),
      View.bind_of_eq_some (reads_text (hshort hlimit.instanceId_le) _), if_neg hbounds,
      ← ServiceWatchRequest.filter]
    by_cases hoverlap : (filters.any fun earlier => earlier.overlaps request.filter) = true
    · rw [if_pos hoverlap]
      refine iff_of_false (by simp [View.fail]) fun hfree => ?_
      obtain ⟨earlier, hearlier, hboth⟩ := List.any_eq_true.mp hoverlap
      rw [hfree.1 earlier hearlier request mem_cons_self] at hboth
      cases hboth
    · rw [if_neg hoverlap]
      refine (ih hlater (filters ++ [request.filter])).trans ?_
      simp only [List.any_eq_true, not_exists, not_and, Bool.not_eq_true] at hoverlap
      simp only [mem_append, mem_singleton, pairwise_cons, forall_mem_cons]
      constructor
      · rintro ⟨hfree, hpairs⟩
        exact ⟨fun filter hfilter => ⟨hoverlap filter hfilter, hfree filter (.inl hfilter)⟩,
          hfree _ (.inr rfl), hpairs⟩
      · rintro ⟨hfree, hfirst, hpairs⟩
        refine ⟨fun filter hfilter => ?_, hpairs⟩
        rcases hfilter with hfilter | rfl
        · exact (hfree filter hfilter).2
        · exact hfirst

/-- After any operations the groups that match an instance are found, each once, and the indices list
    live groups only. Two filters overlap exactly when they match a common instance, on either side of
    the connection, so a request with fields within the limits passes the client exactly when the
    ServiceManager takes its filters. -/
theorem watch_matching_exact :
    (∀ (operations : List WatchOperation) (identity : ServiceIdentity),
      let w := operations.foldl WatchTables.perform .init
      (∀ group, group ∈ w.matching identity ↔
        ∃ key : WatchKey, w.groups[key]? = some group ∧ group.matches identity = true) ∧
      (w.matching identity).Nodup ∧
      (∀ name key, w.serviceIndex.Has name key → ∃ group, w.groups[key]? = some group) ∧
      ∀ fd watchId, w.subscriberIndex.Has fd watchId →
        ∃ group, w.groups[(⟨fd, watchId⟩ : WatchKey)]? = some group) ∧
    (∀ a b : ServiceWatchFilter, a.overlaps b = true ↔
      ∃ identity, a.matches identity = true ∧ b.matches identity = true) ∧
    (∀ a b : ServiceWatchRequest, watchesOverlap a b = a.filter.overlaps b.filter) ∧
    ∀ requests : List ServiceWatchRequest, requests ≠ [] → requests.length ≤ 64 →
      (∀ request ∈ requests, request.WithinLimits) → ∀ rest,
        (validWatchRequests requests = true ↔ (readWatchFilters requests.length []
          ((Layout.join (requests.map ServiceWatchRequest.layout)).wire ++ rest)).isSome = true) := by
  refine ⟨fun operations identity => ?_, fun a b => overlaps_iff, fun a b => rfl,
    fun requests hsome hcount hlimits rest => ?_⟩
  · have hindexed := WatchTables.indexed_run operations
    refine ⟨fun group => ?_, WatchTables.nodup_matching hindexed identity, fun name key hhas => ?_,
      fun fd watchId => (hindexed.subscriber fd watchId).mp⟩
    · exact ServiceWatchNotifier.mem_matching (w := ⟨_, hindexed⟩)
    · obtain ⟨group, hgroup, -⟩ := (hindexed.service name key).mp hhas
      exact ⟨group, hgroup⟩
  · rw [readWatchFilters_isSome hlimits]
    have hfields : (requests.all fun request => !request.serviceName.isEmpty
        && decide (request.serviceName.length ≤ maxServiceNameLength)
        && decide (request.hostId.length ≤ maxServiceNameLength)
        && decide (request.instanceId.length ≤ maxServiceNameLength)) = true := by
      refine List.all_eq_true.mpr fun request hrequest => ?_
      have hlimit := hlimits request hrequest
      simp [hlimit.named, hlimit.serviceName_le, hlimit.hostId_le, hlimit.instanceId_le]
    have hpasses : validWatchRequests requests =
        decide (requests.Pairwise fun earlier later => watchesOverlap later earlier = false) := by
      unfold validWatchRequests
      rw [if_neg (by simp [hsome, hcount]), hfields, Bool.true_and]
    rw [hpasses, decide_eq_true_iff]
    simp only [not_mem_nil, false_imp_iff, implies_true, true_and]
    exact List.Pairwise.iff fun earlier later => by
      rw [← overlaps_comm later.filter]
      rfl

end ServiceManager

end OmniBinder
