/-
Module: OmniBinder.Proofs.SmQueues
Purpose: The queues of the connections of the ServiceManager. What each send does to the queue of its
  connection is listed once, as the rule for a property of queues; everything that handlers send keeps a
  property that meets the rule.
Trusted boundary: none
Main exports: QueueRule, Sends
-/
import OmniBinder.Proofs.FrameStream
import OmniBinder.Proofs.SmNesting

namespace OmniBinder.ServiceManager

open Std.TreeMap App

variable {conn' : ClientConnection} {entry : TraceEntry} {P : App → Prop} {out : Outgoing}

/-! ### Properties of a queue -/

/-- The entry is about the bytes of a connection. -/
def TraceEntry.concerns (fd : Int) : TraceEntry → Bool
  | .accepted fd' _ | .handed fd' _ _ | .transmitted fd' _ => fd' = fd
  | _ => false

/-- The fields of a connection that sending is about are the same. -/
structure SameQueue (conn conn' : ClientConnection) : Prop where
  sendBuffer_eq : conn'.sendBuffer = conn.sendBuffer
  sendOffset_eq : conn'.sendOffset = conn.sendOffset
  writeEvents_eq : conn'.writeEvents = conn.writeEvents

/-- And so is what a hello tells of its peer. -/
structure SameLink (conn conn' : ClientConnection) : Prop extends SameQueue conn conn' where
  hostId_eq : conn'.hostId = conn.hostId
  runtimeId_eq : conn'.runtimeId = conn.runtimeId
  sessionKey_eq : conn'.sessionKey = conn.sessionKey

/-- What a property of a connection and the trace has to satisfy to be kept by everything but a flush:
    it holds of a new connection, a hello keeps it, and one case for each way in which `sendMessage`
    ends. -/
structure QueueRule (R : List TraceEntry → Int → ClientConnection → Prop) : Prop where
  skip : ∀ {trace fd conn} (entry : TraceEntry), entry.concerns fd = false → R trace fd conn →
    R (entry :: trace) fd conn
  same : ∀ {trace fd conn conn'}, SameLink conn conn' → R trace fd conn → R trace fd conn'
  greeted : ∀ {trace fd conn} (info : RuntimeInfo) (runtimeId : Bytes) (interval timeout : UInt32),
    R trace fd conn → R trace fd (App.ClientConnection.greet conn info runtimeId interval timeout)
  fresh : ∀ {trace fd} (serial : Nat),
    R (.accepted fd serial :: trace) fd (ClientConnection.init serial)
  unserialized : ∀ {trace fd conn sequence out}, out.frame sequence = none → R trace fd conn →
    R (.handed fd sequence out :: trace) fd conn
  queued : ∀ {trace fd conn sequence out frame}, out.frame sequence = some frame →
    conn.sendOffset < conn.sendBuffer.size →
    conn.sendBuffer.size - conn.sendOffset + frame.length ≤ maxMessageSize → R trace fd conn →
    R (.handed fd sequence out :: trace) fd
      { conn with sendBuffer := (conn.sendBuffer.writeRaw .succeeds frame).2, writeEvents := true }
  sent : ∀ {trace fd conn sequence out frame}, out.frame sequence = some frame →
    ¬ conn.sendOffset < conn.sendBuffer.size → R trace fd conn →
    R (.transmitted fd frame :: .handed fd sequence out :: trace) fd conn
  partly : ∀ {trace fd conn sequence out frame count}, out.frame sequence = some frame →
    ¬ conn.sendOffset < conn.sendBuffer.size → count < frame.length → R trace fd conn →
    R (.transmitted fd (frame.take count) :: .handed fd sequence out :: trace) fd
      { conn with
        sendBuffer := conn.sendBuffer.assign .succeeds (frame.drop count)
        sendOffset := 0
        writeEvents := true }

/-- Every connection has the property. -/
def HoldsAt (R : List TraceEntry → Int → ClientConnection → Prop) (s : App) : Prop :=
  ∀ (fd : Int) (conn : ClientConnection), s.clients[fd]? = some conn → R s.trace fd conn

/-- Every connection but one has the property. -/
def HoldsBut (R : List TraceEntry → Int → ClientConnection → Prop) (fd : Int) (s : App) : Prop :=
  ∀ (fd' : Int) (conn : ClientConnection), fd' ≠ fd → s.clients[fd']? = some conn →
    R s.trace fd' conn

variable {s : App} {fd : Int} {conn : ClientConnection}
  {R : List TraceEntry → Int → ClientConnection → Prop}

theorem HoldsAt.but (h : HoldsAt R s) (fd : Int) : HoldsBut R fd s :=
  fun fd' conn _ hconn => h fd' conn hconn

theorem HoldsBut.setClient (h : HoldsBut R fd s) (hnew : R s.trace fd conn) :
    HoldsAt R (s.setClient fd conn) := by
  intro fd' conn' hconn'
  rcases Table.of_insert hconn' with ⟨rfl, rfl⟩ | ⟨hfd, hconn'⟩
  · exact hnew
  · exact h fd' conn' (Ne.symm hfd) hconn'

theorem HoldsBut.of_holds (h : HoldsBut R fd s) (hconn : s.clients[fd]? = some conn)
    (hold : R s.trace fd conn) : HoldsAt R s := by
  intro fd' conn' hconn'
  by_cases hfd : fd' = fd
  · subst hfd
    rw [hconn] at hconn'
    exact Option.some.inj hconn' ▸ hold
  · exact h fd' conn' hfd hconn'

theorem HoldsBut.of_gone (h : HoldsBut R fd s) (hgone : s.clients[fd]? = none) : HoldsAt R s := by
  intro fd' conn hconn
  by_cases hfd : fd' = fd
  · rw [hfd, hgone] at hconn
    cases hconn
  · exact h fd' conn hfd hconn

section
variable (hR : QueueRule R)
include hR

theorem QueueRule.skips {trace new : List TraceEntry}
    (hnew : ∀ entry ∈ new, entry.concerns fd = false) (h : R trace fd conn) :
    R (new ++ trace) fd conn := by
  induction new with
  | nil => exact h
  | cons entry new ih =>
    exact hR.skip entry (hnew entry (List.mem_cons_self ..))
      (ih fun entry hentry => hnew entry (List.mem_cons_of_mem _ hentry))

/-- A change of a connection that leaves its queue and its identity alone. -/
theorem QueueRule.setClient (hconn : s.clients[fd]? = some conn)
    (hsame : SameLink conn conn') (h : HoldsAt R s) : HoldsAt R (s.setClient fd conn') :=
  (h.but fd).setClient (hR.same hsame (h fd conn hconn))

theorem QueueRule.recordFor
    (hentry : ∀ fd', fd' ≠ fd → entry.concerns fd' = false) (h : HoldsBut R fd s) :
    HoldsBut R fd (s.record entry) :=
  fun fd' conn hne hconn => hR.skip entry (hentry fd' hne) (h fd' conn hne hconn)

theorem QueueRule.record (hentry : ∀ fd, entry.concerns fd = false)
    (h : HoldsAt R s) : HoldsAt R (s.record entry) :=
  fun fd conn hconn => hR.skip entry (hentry fd) (h fd conn hconn)

end

/-! ### Sending -/

/-- What a function that closes connections has to do, as long as there are not too many: a connection
    whose queue is not in order any more is the one that goes. -/
structure Closing (R : List TraceEntry → Int → ClientConnection → Prop) (bound : Nat)
    (close : Int → App → App) : Prop where
  size_le : ∀ fd s, s.clients.size ≤ bound → (close fd s).clients.size ≤ bound
  holds : ∀ fd s, s.clients.size ≤ bound → HoldsBut R fd s → HoldsAt R (close fd s)

/-- Few enough connections, each with the property. -/
structure HoldsWithin (R : List TraceEntry → Int → ClientConnection → Prop) (bound : Nat) (s : App) :
    Prop where
  size_le : s.clients.size ≤ bound
  holds : HoldsAt R s

theorem takeOutcome_spec (s : App) (offered : Nat) :
    (s.takeOutcome offered).2.clients = s.clients ∧ (s.takeOutcome offered).2.trace = s.trace ∧
      ∀ count ∈ (s.takeOutcome offered).1, count ≤ offered := by
  unfold takeOutcome
  split
  · exact ⟨rfl, rfl, by simp⟩
  · exact ⟨rfl, rfl, by simp⟩
  · exact ⟨rfl, rfl, by simp⟩

/-- What every turn of a loop keeps is kept by the loop. -/
theorem foldl_keeps {α : Type} {step : App → α → App}
    (hstep : ∀ s x, P s → P (step s x)) (xs : List α) (hs : P s) : P (xs.foldl step s) := by
  induction xs generalizing s with
  | nil => exact hs
  | cons x xs ih => exact ih (hstep s x hs)

theorem forEachPidConn_keeps {visitor : Int → App → Bool × App}
    (hvisit : ∀ fd s, P s → P (visitor fd s).2) {pid : UInt32} {exceptFd : Int} (hs : P s) :
    P (s.forEachPidConn pid exceptFd visitor).2 := by
  unfold forEachPidConn
  generalize s.pidToFds.values pid = fds
  generalize false = handled
  induction fds generalizing handled s with
  | nil => exact hs
  | cons fd fds ih =>
    rw [List.foldl_cons]
    by_cases hskip : (!s.clients.contains fd) = true ∨ fd = exceptFd
    · simp only [if_pos hskip]
      exact ih hs handled
    · simp only [if_neg hskip]
      exact ih (hvisit fd s hs) _

section
variable (hR : QueueRule R) {bound : Nat} {close : Int → App → App}
  (hclose : Closing R bound close)
include hR hclose

theorem QueueRule.sendFrame {sequence : UInt32} {frame : Bytes}
    (hframe : out.frame sequence = some frame) (hconn : s.clients[fd]? = some conn)
    (h : HoldsWithin R bound s) :
    HoldsWithin R bound ((s.record (.handed fd sequence out)).sendFrame close fd conn frame) := by
  have hbut : HoldsBut R fd (s.record (.handed fd sequence out)) :=
    hR.recordFor (fun fd' hne => by simp [TraceEntry.concerns, Ne.symm hne]) (h.holds.but fd)
  have hold : R s.trace fd conn := h.holds fd conn hconn
  have hset : ∀ {s' : App} (conn' : ClientConnection), s'.clients = s.clients →
      (s'.setClient fd conn').clients.size ≤ bound := by
    intro s' conn' hclients
    have hmem : s'.clients.contains fd = true := by
      rw [hclients]
      exact App.contains_iff.mpr ⟨conn, hconn⟩
    simp only [App.setClient]
    rw [size_insert, if_pos hmem, hclients]
    exact h.size_le
  unfold App.sendFrame
  by_cases hpending : conn.sendOffset < conn.sendBuffer.size
  · rw [if_pos hpending]
    by_cases hoverflow : conn.sendBuffer.size - conn.sendOffset + frame.length > maxMessageSize
    · rw [if_pos hoverflow]
      exact ⟨hclose.size_le fd _ h.size_le, hclose.holds fd _ h.size_le hbut⟩
    · rw [if_neg hoverflow]
      exact ⟨hset _ rfl, hbut.setClient (hR.queued hframe hpending (Nat.not_lt.mp hoverflow) hold)⟩
  · rw [if_neg hpending]
    obtain ⟨hclients, htrace, hcount⟩ :=
      takeOutcome_spec (s.record (.handed fd sequence out)) frame.length
    generalize (s.record (.handed fd sequence out)).takeOutcome frame.length = outcome at *
    obtain ⟨taken, s'⟩ := outcome
    replace hclients : s'.clients = s.clients := hclients
    replace htrace : s'.trace = .handed fd sequence out :: s.trace := htrace
    have hbut' : HoldsBut R fd s' := fun fd' conn' hne hconn' =>
      htrace ▸ hbut fd' conn' hne (hclients ▸ hconn')
    have hsize : s'.clients.size ≤ bound := hclients ▸ h.size_le
    cases taken with
    | none => exact ⟨hclose.size_le fd s' hsize, hclose.holds fd s' hsize hbut'⟩
    | some count =>
      have hbut'' : HoldsBut R fd (s'.record (.transmitted fd (frame.take count))) :=
        hR.recordFor (fun fd' hne => by simp [TraceEntry.concerns, Ne.symm hne]) hbut'
      by_cases hless : count < frame.length
      · simp only [if_pos hless]
        refine ⟨hset _ hclients, hbut''.setClient ?_⟩
        rw [App.record, htrace]
        exact hR.partly hframe hpending hless hold
      · simp only [if_neg hless]
        refine ⟨hsize, hbut''.of_holds (hclients ▸ hconn) ?_⟩
        have hall : frame.take count = frame := List.take_of_length_le (Nat.not_lt.mp hless)
        rw [App.record, htrace, hall]
        exact hR.sent hframe hpending hold

theorem QueueRule.sendMessage (fd : Int) (sequence : UInt32) (out : Outgoing)
    (h : HoldsWithin R bound s) : HoldsWithin R bound (s.sendMessage close fd sequence out) := by
  unfold App.sendMessage
  cases hconn : s.clients[fd]? with
  | none => exact h
  | some conn =>
    cases hmessage : out.message sequence with
    | none => exact h
    | some msg =>
      simp only
      rcases hserialize : msg.serialize .succeeds Buffer.init with ⟨_ | _, output⟩
      · have hframe : out.frame sequence = none := by
          simp only [Outgoing.frame, hmessage, hserialize]
        have hbut : HoldsBut R fd (s.record (.handed fd sequence out)) :=
          hR.recordFor (fun fd' hne => by simp [TraceEntry.concerns, Ne.symm hne]) (h.holds.but fd)
        exact ⟨h.size_le, hbut.of_holds hconn (hR.unserialized hframe (h.holds fd conn hconn))⟩
      · have hframe : out.frame sequence = some output.bytes := by
          simp only [Outgoing.frame, hmessage, hserialize]
        exact hR.sendFrame hclose hframe hconn h

theorem QueueRule.sendProactive (fd : Int) (out : Outgoing) (h : HoldsWithin R bound s) :
    HoldsWithin R bound (s.sendProactive close fd out) :=
  hR.sendMessage hclose fd _ out (s := s.nextSMProactiveSequence.2) ⟨h.size_le, h.holds⟩

theorem QueueRule.sendServiceWatchNotify (fd : Int) (watchId : UInt64) (identity : ServiceIdentity)
    (online : Bool) (h : HoldsWithin R bound s) :
    HoldsWithin R bound (s.sendServiceWatchNotify close fd watchId identity online) := by
  unfold App.sendServiceWatchNotify
  split_ifs
  · exact hR.sendProactive hclose fd _ h
  · exact h

theorem QueueRule.notifyServiceWatch (identity : ServiceIdentity) (online : Bool)
    (h : HoldsWithin R bound s) : HoldsWithin R bound (s.notifyServiceWatch close identity online) :=
  foldl_keeps (fun _ _ hs => hR.sendServiceWatchNotify hclose _ _ _ _ hs) _ h

theorem QueueRule.stopTargetIfUnwatched (pid : UInt32) (watcherFd : Int) (h : HoldsWithin R bound s) :
    HoldsWithin R bound (s.stopTargetIfUnwatched close pid watcherFd) := by
  have hstop : ∀ {s : App}, HoldsWithin R bound s →
      HoldsWithin R bound (s.sendDiagWatchStopToPid close pid watcherFd) := fun h =>
    forEachPidConn_keeps (P := HoldsWithin R bound) (fun _ _ hs => hR.sendProactive hclose _ _ hs) h
  unfold App.stopTargetIfUnwatched
  simp only
  split_ifs
  · exact ⟨h.size_le, h.holds⟩
  · exact hstop ⟨h.size_le, h.holds⟩

theorem QueueRule.removeWatcherAndMaybeStopTargets (watcherFd : Int) (h : HoldsWithin R bound s) :
    HoldsWithin R bound (s.removeWatcherAndMaybeStopTargets close watcherFd) :=
  foldl_keeps (fun _ _ hs => hR.stopTargetIfUnwatched hclose _ _ hs) _ ⟨h.size_le, h.holds⟩

end

/-! ### Closing -/

theorem HoldsAt.forget (h : HoldsAt R s) (fd : Int) (conn : ClientConnection) :
    HoldsAt R (s.forget fd conn) := by
  obtain ⟨hclients, -, -, -, htrace, -, -⟩ := forget_frame s fd conn
  unfold HoldsAt
  rw [hclients, htrace]
  exact h

section
variable (hR : QueueRule R)
include hR

/-- The connection that may be out of order goes. -/
theorem QueueRule.detach (conn : ClientConnection) (notify : Bool) (h : HoldsBut R fd s) :
    HoldsAt R (s.detach fd conn notify).2 := by
  intro fd' conn' hconn'
  obtain ⟨hfd, hconn'⟩ := Table.of_erase hconn'
  refine hR.skips (fun entry hentry => ?_) (hR.skip _ rfl (h fd' conn' (Ne.symm hfd) hconn'))
  split_ifs at hentry
  · cases hentry
  · obtain ⟨identity, -, rfl⟩ := List.mem_map.mp hentry
    rfl

theorem QueueRule.closeNested (fuel : Nat) (fd : Int) (notify : Bool)
    (hsize : s.clients.size ≤ fuel) (h : HoldsBut R fd s) :
    HoldsAt R (closeNested fuel fd notify s) := by
  induction fuel generalizing fd notify s with
  | zero =>
    refine h.of_gone ?_
    have hempty : s.clients.isEmpty = true := by
      rw [isEmpty_eq_size_eq_zero]
      exact beq_iff_eq.mpr (Nat.le_zero.mp hsize)
    exact getElem?_of_isEmpty hempty
  | succ fuel ih =>
    rw [closeNested]
    cases hconn : s.clients[fd]? with
    | none => exact h.of_gone hconn
    | some conn =>
      have hclosing : Closing R fuel fun fd s => closeNested fuel fd true s :=
        ⟨fun fd s hs => (closeNested_spec fuel fd true s hs).1.shrinks.size_le.trans hs,
          fun fd s hs hbut => ih fd true hs hbut⟩
      have hdetached : HoldsWithin R fuel (s.detach fd conn notify).2 := by
        refine ⟨?_, hR.detach conn notify h⟩
        have hmem : s.clients.contains fd = true := App.contains_iff.mpr ⟨conn, hconn⟩
        have herased : (s.clients.erase fd).size = s.clients.size - 1 := by
          rw [size_erase, if_pos hmem]
        change (s.clients.erase fd).size ≤ fuel
        omega
      have htold : HoldsWithin R fuel (if notify then
          (s.detach fd conn notify).1.foldl (fun s identity => s.notifyServiceRemoved
            (fun fd s => closeNested fuel fd true s) identity) (s.detach fd conn notify).2
        else (s.detach fd conn notify).2) := by
        split_ifs
        · exact foldl_keeps (fun _ _ hs => hR.notifyServiceWatch hclosing _ _ hs) _ hdetached
        · exact hdetached
      refine (hR.removeWatcherAndMaybeStopTargets hclosing fd ⟨?_, htold.holds.forget fd conn⟩).holds
      rw [(forget_frame _ fd conn).1]
      exact htold.size_le

theorem QueueRule.closeClient (fd : Int) (notify : Bool) (h : HoldsBut R fd s) :
    HoldsAt R (s.closeClient fd notify) :=
  hR.closeNested s.clients.size fd notify le_rfl h

theorem QueueRule.closing (bound : Nat) : Closing R bound closeFailed :=
  ⟨fun fd s hs => (closeClient_unprompted fd true s).shrinks.size_le.trans hs,
    fun fd _ _ hbut => hR.closeClient fd true hbut⟩

/-! ### Messages to clients -/

theorem QueueRule.send (fd : Int) (sequence : UInt32) (out : Outgoing) (h : HoldsAt R s) :
    HoldsAt R (s.sendMessage closeFailed fd sequence out) :=
  (hR.sendMessage (hR.closing s.clients.size) fd sequence out ⟨le_rfl, h⟩).holds

theorem QueueRule.notify (identity : ServiceIdentity) (online : Bool) (h : HoldsAt R s) :
    HoldsAt R (s.notifyServiceWatch closeFailed identity online) :=
  (hR.notifyServiceWatch (hR.closing s.clients.size) identity online ⟨le_rfl, h⟩).holds

theorem QueueRule.proactive (fd : Int) (out : Outgoing) (h : HoldsAt R s) :
    HoldsAt R (s.sendProactive closeFailed fd out) :=
  (hR.sendProactive (hR.closing s.clients.size) fd out ⟨le_rfl, h⟩).holds

theorem QueueRule.armSessionDeadline (fd : Int) (h : HoldsAt R s) :
    HoldsAt R (s.armSessionDeadline fd) := by
  unfold App.armSessionDeadline
  split
  · exact h
  · next conn hconn =>
    split_ifs
    · exact h
    · exact hR.setClient hconn ⟨⟨rfl, rfl, rfl⟩, rfl, rfl, rfl⟩ h

theorem QueueRule.enterSession (info : RuntimeInfo) (runtimeId : Bytes) (interval timeout : UInt32)
    (hconn : s.clients[fd]? = some conn) (h : HoldsAt R s) :
    HoldsAt R (s.enterSession fd conn info runtimeId interval timeout) := by
  have hgreeted : ∀ {s' : App}, s'.clients = s.clients → s'.trace = s.trace →
      HoldsAt R ((s'.setClient fd
        (App.ClientConnection.greet conn info runtimeId interval timeout)).armSessionDeadline fd) := by
    intro s' hclients htrace
    have hbut : HoldsBut R fd s' := fun fd' conn' _ hconn' =>
      htrace ▸ h fd' conn' (hclients ▸ hconn')
    refine hR.armSessionDeadline fd (hbut.setClient (hR.greeted info runtimeId interval timeout ?_))
    exact htrace ▸ h fd conn hconn
  unfold App.enterSession
  simp only
  split_ifs
  · exact hgreeted rfl rfl
  · exact hgreeted rfl rfl
  · exact hgreeted rfl rfl
  · exact hgreeted rfl rfl

theorem QueueRule.onClientAccepted (fd : Int) (h : HoldsAt R s) :
    HoldsAt R (s.onClientAccepted fd) := by
  unfold App.onClientAccepted
  split_ifs
  · exact h
  have hbut : HoldsBut R fd (s.record (.accepted fd s.nextSerial)) :=
    hR.recordFor (fun fd' hne => by simp [TraceEntry.concerns, Ne.symm hne]) (h.but fd)
  have hsame : SameLink (ClientConnection.init s.nextSerial)
      { ClientConnection.init s.nextSerial with sessionGeneration := 1, helloTimer := some 1 } :=
    ⟨⟨rfl, rfl, rfl⟩, rfl, rfl, rfl⟩
  exact hbut.setClient (hR.same hsame (hR.fresh s.nextSerial))

end

/-! ### What handlers send -/

/-- Something nested that keeps every property of queues that meets the rule. -/
structure Sends (ok : ServiceRegistry → Outgoing → Prop) (s s' : App) : Prop where
  nested : Nested ok s s'
  holdsAt : ∀ {R : List TraceEntry → Int → ClientConnection → Prop}, QueueRule R → HoldsAt R s →
    HoldsAt R s'

variable {ok : ServiceRegistry → Outgoing → Prop} {s' s'' : App}

theorem Sends.refl (s : App) : Sends ok s s := ⟨.refl s, fun _ => id⟩

theorem Sends.trans (h : Sends ok s s') (h' : Sends ok s' s'') : Sends ok s s'' :=
  ⟨h.nested.trans h'.nested, fun hR hs => h'.holdsAt hR (h.holdsAt hR hs)⟩

theorem Sends.mono {ok' : ServiceRegistry → Outgoing → Prop}
    (hok : ∀ registry out, ok registry out → ok' registry out) (h : Sends ok s s') : Sends ok' s s' :=
  ⟨h.nested.mono hok, h.holdsAt⟩

theorem sends_ite {c : Prop} [Decidable c] (h : Sends ok s s') (h' : Sends ok s s'') :
    Sends ok s (if c then s' else s'') := by
  split_ifs
  · exact h
  · exact h'

theorem sends_foldl {α : Type} (step : App → α → App) (xs : List α)
    (hstep : ∀ s x, Sends ok s (step s x)) : Sends ok s (xs.foldl step s) :=
  ⟨nested_foldl _ _ le_rfl fun x _ s' _ _ => (hstep s' x).nested,
    fun hR => foldl_keeps (fun s x => (hstep s x).holdsAt hR) xs⟩

theorem sends_forEachPidConn (pid : UInt32) (exceptFd : Int) (visitor : Int → App → Bool × App)
    (hvisit : ∀ fd s, Sends ok s (visitor fd s).2) :
    Sends ok s (s.forEachPidConn pid exceptFd visitor).2 :=
  ⟨nested_forEachPidConn _ le_rfl pid exceptFd _ fun fd s' _ => (hvisit fd s').nested,
    fun hR => forEachPidConn_keeps (P := HoldsAt _) fun fd s => (hvisit fd s).holdsAt hR⟩

theorem sends_setClient (hconn : s.clients[fd]? = some conn)
    (hprofile : conn'.profile = conn.profile) (hsame : SameLink conn conn') :
    Sends ok s (s.setClient fd conn') :=
  ⟨.touch (touches_setClient hconn hprofile), fun hR => hR.setClient hconn hsame⟩

section
variable (hun : ∀ registry out, Unprompted registry out → ok registry out)
include hun

theorem sends_closeClient (s : App) (fd : Int) (notify : Bool) : Sends ok s (s.closeClient fd notify) :=
  ⟨(closeClient_unprompted fd notify s).mono hun, fun hR hs => hR.closeClient fd notify (hs.but fd)⟩

theorem sends_message (s : App) (fd : Int) (sequence : UInt32)
    (hok : ok s.registry out) : Sends ok s (s.sendMessage closeFailed fd sequence out) :=
  ⟨nested_sendMessage (closes_closeFailed hun _) le_rfl fd sequence hok,
    fun hR => hR.send fd sequence out⟩

theorem sends_proactive (s : App) (fd : Int) (hok : ok s.registry out) :
    Sends ok s (s.sendProactive closeFailed fd out) :=
  ⟨nested_sendProactive (closes_closeFailed hun _) le_rfl fd hok, fun hR => hR.proactive fd out⟩

theorem sends_watchNotify (s : App) (fd : Int) (watchId : UInt64) (identity : ServiceIdentity)
    (online : Bool) (hok : ok s.registry (.serviceWatchNotify watchId identity online)) :
    Sends ok s (s.sendServiceWatchNotify closeFailed fd watchId identity online) :=
  sends_ite (sends_proactive hun s fd hok) (.refl s)

/-- `hok` is asked of every registry that has lost entries since. -/
theorem sends_notify (s : App) (identity : ServiceIdentity) (online : Bool)
    (hok : ∀ s', Shrinks s s' → ∀ watchId,
      ok s'.registry (.serviceWatchNotify watchId identity online)) :
    Sends ok s (s.notifyServiceWatch closeFailed identity online) :=
  ⟨nested_notifyServiceWatch (closes_closeFailed hun _) le_rfl hok, fun hR => hR.notify identity online⟩

end

end OmniBinder.ServiceManager
