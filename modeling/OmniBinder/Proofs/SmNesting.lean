/-
Module: OmniBinder.Proofs.SmNesting
Purpose: What can happen while the ServiceManager sends or closes.
Trusted boundary: none
Main exports: Touches, closeNested_spec
-/
import OmniBinder.ServiceManager.Handlers

namespace OmniBinder.ServiceManager

open List Option Std.TreeMap SetIndex ServiceRegistry App ServiceWatchNotifier

variable {s s'' : App} {fd : Int} {conn : ClientConnection} {ok : ServiceRegistry → Outgoing → Prop}
  {entry : TraceEntry} {identity : ServiceIdentity} {online : Bool} {group : ServiceWatchGroup}

/-! ### Changes to a connection only -/

/-- What identifies the peer of a connection. -/
structure ClientProfile where
  pid : UInt32
  runtimeRegistered : Bool
  sessionKey : Bytes
  incarnationId : UInt32
  serial : Nat
deriving DecidableEq, Repr

def ClientConnection.profile (conn : ClientConnection) : ClientProfile :=
  ⟨conn.pid, conn.runtimeRegistered, conn.sessionKey, conn.incarnationId, conn.serial⟩

namespace App

def profile? (s : App) (fd : Int) : Option ClientProfile :=
  (s.clients[fd]? : Option ClientConnection).map ClientConnection.profile

/-- The connection is in the table of clients. -/
def Alive (s : App) (fd : Int) : Prop := ∃ conn, s.clients[fd]? = some conn

theorem alive_iff_profile : s.Alive fd ↔ ∃ p, s.profile? fd = some p := by
  unfold Alive profile?
  cases s.clients[fd]? with
  | none => simp
  | some conn => simp

theorem contains_iff : s.clients.contains fd = true ↔ s.Alive fd := by
  rw [← isSome_getElem?_eq_contains, isSome_iff_exists]
  rfl

instance (s : App) (fd : Int) : Decidable (s.Alive fd) :=
  decidable_of_iff _ contains_iff

theorem not_alive_iff : ¬ s.Alive fd ↔ s.clients[fd]? = none := by
  unfold Alive
  rw [← isSome_iff_exists, not_isSome_iff_eq_none]

end App

/-- Only the queues and timers of connections differ, and bytes may have been transmitted. -/
structure Touches (s s' : App) : Prop where
  profile_eq : ∀ fd, s'.profile? fd = s.profile? fd
  size_eq : s'.clients.size = s.clients.size
  pidToFds_eq : s'.pidToFds = s.pidToFds
  pidWatchers_eq : s'.pidWatchers = s.pidWatchers
  watcherToPids_eq : s'.watcherToPids = s.watcherToPids
  registry_eq : s'.registry = s.registry
  watchNotifier_eq : s'.watchNotifier = s.watchNotifier
  topicManager_eq : s'.topicManager = s.topicManager
  runtimeSessions_eq : s'.runtimeSessions = s.runtimeSessions
  nextSerial_eq : s'.nextSerial = s.nextSerial
  trace_eq : ∃ new, s'.trace = new ++ s.trace ∧ ∀ entry ∈ new, ∃ fd content,
    entry = TraceEntry.transmitted fd content

theorem Touches.refl (s : App) : Touches s s :=
  ⟨fun _ => rfl, rfl, rfl, rfl, rfl, rfl, rfl, rfl, rfl, rfl, [], rfl, by simp⟩

variable {s' : App}

theorem Touches.trans (h : Touches s s') (h' : Touches s' s'') : Touches s s'' := by
  refine ⟨fun fd => (h'.profile_eq fd).trans (h.profile_eq fd), h'.size_eq.trans h.size_eq,
    h'.pidToFds_eq.trans h.pidToFds_eq, h'.pidWatchers_eq.trans h.pidWatchers_eq,
    h'.watcherToPids_eq.trans h.watcherToPids_eq, h'.registry_eq.trans h.registry_eq,
    h'.watchNotifier_eq.trans h.watchNotifier_eq, h'.topicManager_eq.trans h.topicManager_eq,
    h'.runtimeSessions_eq.trans h.runtimeSessions_eq, h'.nextSerial_eq.trans h.nextSerial_eq, ?_⟩
  obtain ⟨new, htrace, hnew⟩ := h.trace_eq
  obtain ⟨new', htrace', hnew'⟩ := h'.trace_eq
  refine ⟨new' ++ new, by rw [htrace', htrace, append_assoc], fun entry hentry => ?_⟩
  exact (mem_append.mp hentry).elim (hnew' entry) (hnew entry)

/-- A change of a connection that keeps its profile. -/
theorem touches_setClient {conn' : ClientConnection}
    (hconn : s.clients[fd]? = some conn) (hprofile : conn'.profile = conn.profile) :
    Touches s (s.setClient fd conn') where
  profile_eq := fun fd' => by
    simp only [profile?, setClient, Table.getElem?_insert]
    split_ifs with hfd
    · subst hfd
      rw [hconn, map_some, map_some, hprofile]
    · rfl
  size_eq := by
    have hmem : s.clients.contains fd = true := contains_iff.mpr ⟨conn, hconn⟩
    simp only [setClient]
    rw [size_insert, if_pos hmem]
  pidToFds_eq := rfl
  pidWatchers_eq := rfl
  watcherToPids_eq := rfl
  registry_eq := rfl
  watchNotifier_eq := rfl
  topicManager_eq := rfl
  runtimeSessions_eq := rfl
  nextSerial_eq := rfl
  trace_eq := ⟨[], rfl, by simp⟩

theorem touches_plan (s : App) (plan : List SendOutcome) : Touches s { s with plan } :=
  ⟨fun _ => rfl, rfl, rfl, rfl, rfl, rfl, rfl, rfl, rfl, rfl, [], rfl, by simp⟩

theorem touches_transmitted (s : App) (fd : Int) (content : Bytes) :
    Touches s (s.record (.transmitted fd content)) :=
  ⟨fun _ => rfl, rfl, rfl, rfl, rfl, rfl, rfl, rfl, rfl, rfl, [.transmitted fd content], rfl,
    by simp⟩

theorem touches_nextSMProactiveSequence (s : App) : Touches s s.nextSMProactiveSequence.2 :=
  ⟨fun _ => rfl, rfl, rfl, rfl, rfl, rfl, rfl, rfl, rfl, rfl, [], rfl, by simp⟩

/-! ### Everything that can happen on the way -/

/-- What may be sent from within a close: watchers hear of instances that are gone, and nothing else. -/
def Quiet (registry : ServiceRegistry) (out : Outgoing) : Prop :=
  ∀ watchId identity online, out = .serviceWatchNotify watchId identity online →
    online = false ∧ registry.findEntry identity.name identity.instanceId = none

/-- The messages that answer a request. -/
def Outgoing.isReply : Outgoing → Bool
  | .serviceWatchNotify .. | .topicPublisherNotify .. | .diagSetLogLevel _ | .diagWatchStart
  | .diagWatchStop => false
  | _ => true

/-- What is sent from within a close is never a reply. -/
def Unprompted (registry : ServiceRegistry) (out : Outgoing) : Prop :=
  Quiet registry out ∧ out.isReply = false

/-- The state in which a close goes on to stop the targets the connection watched. -/
def App.forgotten (s : App) (fd : Int) (conn : ClientConnection) : App :=
  { s.forget fd conn with watcherToPids := (s.forget fd conn).watcherToPids.eraseKey fd }

/-- What can happen while the ServiceManager sends or closes. `ok` restricts the messages. A close
    detaches the connection, tells the watchers of each instance it owned, forgets the rest of it and
    takes it out of the watcher lists of the processes it watched. -/
inductive Nested (ok : ServiceRegistry → Outgoing → Prop) : App → App → Prop where
  | refl (s : App) : Nested ok s s
  | trans {s s' s'' : App} : Nested ok s s' → Nested ok s' s'' → Nested ok s s''
  | touch {s s' : App} : Touches s s' → Nested ok s s'
  | hand {s : App} (fd : Int) (sequence : UInt32) (out : Outgoing) :
      s.Alive fd → ok s.registry out → Nested ok s (s.record (.handed fd sequence out))
  | unwatch {s : App} (fd : Int) (pid : UInt32) : ¬ s.Alive fd →
      Nested ok s { s with pidWatchers := s.pidWatchers.update pid fun fds => fds.filter (· ≠ fd) }
  | close {s s₁ s₂ : App} (fd : Int) (conn : ClientConnection) (notify : Bool) :
      s.clients[fd]? = some conn →
      Nested ok (s.detach fd conn notify).2 s₁ →
      (notify = true → ∀ identity ∈ (s.detach fd conn notify).1, ∀ key group,
        s₁.watchNotifier.group? key = some group → group.matches identity = true →
        s₁.Alive key.fd → lastSaid key identity.name identity.instanceId s₁.trace = some false) →
      Nested ok (s₁.forgotten fd conn) s₂ →
      (∀ pid, (s₁.forget fd conn).watcherToPids.Has fd pid → fd ∉ s₂.pidWatchers.values pid) →
      Nested ok s s₂

theorem Nested.mono {ok' : ServiceRegistry → Outgoing → Prop}
    (hok : ∀ registry out, ok registry out → ok' registry out) (h : Nested ok s s') :
    Nested ok' s s' := by
  induction h with
  | refl s => exact .refl s
  | trans _ _ ih ih' => exact ih.trans ih'
  | touch htouch => exact .touch htouch
  | hand fd sequence out halive hout => exact .hand fd sequence out halive (hok _ _ hout)
  | unwatch fd pid hgone => exact .unwatch fd pid hgone
  | close fd conn notify hconn _ htold _ hgone ih ih' =>
    exact .close fd conn notify hconn ih htold ih' hgone

/-! ### Nothing comes in -/

/-- What is on record after something nested: no new registration, subscription or publication. -/
def TraceEntry.Passing : TraceEntry → Prop
  | .handed .. | .transmitted .. | .closed .. | .serviceDropped .. => True
  | _ => False

/-- Connections and what they own only go; what belongs to a connection that stays, stays. -/
structure Shrinks (s s' : App) : Prop where
  profile : ∀ fd p, s'.profile? fd = some p → s.profile? fd = some p
  size_le : s'.clients.size ≤ s.clients.size
  registry : ∀ n k entry, s'.registry.findEntry n k = some entry ↔
    s.registry.findEntry n k = some entry ∧ (s.Alive entry.controlFd → s'.Alive entry.controlFd)
  group : ∀ key group, s'.watchNotifier.group? key = some group ↔
    s.watchNotifier.group? key = some group ∧ (s.Alive key.fd → s'.Alive key.fd)
  slot : ∀ n t i slot, s'.topicManager.slot? n t i = some slot ↔
    s.topicManager.slot? n t i = some slot ∧ (s.Alive slot.fd → s'.Alive slot.fd)
  subscription : ∀ n t fd k selector, s'.topicManager.subscription? n t fd k = some selector ↔
    s.topicManager.subscription? n t fd k = some selector ∧ (s.Alive fd → s'.Alive fd)
  topic_mentions : ∀ fd, s'.topicManager.Mentions fd → s.topicManager.Mentions fd
  session : ∀ (k : Bytes) (fd : Int), s'.runtimeSessions[k]? = some fd → s.runtimeSessions[k]? = some fd
  pidToFds : ∀ pid fd, fd ∈ s'.pidToFds.values pid → fd ∈ s.pidToFds.values pid
  pidWatchers : ∀ pid fd, fd ∈ s'.pidWatchers.values pid → fd ∈ s.pidWatchers.values pid
  watcherToPids : ∀ fd pid, s'.watcherToPids.Has fd pid → s.watcherToPids.Has fd pid
  nextSerial_eq : s'.nextSerial = s.nextSerial
  trace : ∃ new, s'.trace = new ++ s.trace ∧ ∀ entry ∈ new, entry.Passing

theorem Shrinks.alive (h : Shrinks s s') (halive : s'.Alive fd) : s.Alive fd := by
  obtain ⟨p, hp⟩ := alive_iff_profile.mp halive
  exact alive_iff_profile.mpr ⟨p, h.profile fd p hp⟩

/-- Composing two conditions of the form "what belongs to a connection that goes, goes". -/
theorem kept_trans {P P' P'' : Prop} {A A' A'' : Prop} (h : P' ↔ P ∧ (A → A'))
    (h' : P'' ↔ P' ∧ (A' → A'')) (hback : A' → A) (hback' : A'' → A') : P'' ↔ P ∧ (A → A'') := by
  rw [h', h]
  exact ⟨fun ⟨⟨hp, ha⟩, ha'⟩ => ⟨hp, ha' ∘ ha⟩,
    fun ⟨hp, ha⟩ => ⟨⟨hp, hback' ∘ ha⟩, ha ∘ hback⟩⟩

theorem Shrinks.trans (h : Shrinks s s') (h' : Shrinks s' s'') : Shrinks s s'' where
  profile := fun fd p hp => h.profile fd p (h'.profile fd p hp)
  size_le := le_trans h'.size_le h.size_le
  registry := fun n k entry => kept_trans (h.registry n k entry) (h'.registry n k entry) h.alive h'.alive
  group := fun key group => kept_trans (h.group key group) (h'.group key group) h.alive h'.alive
  slot := fun n t i slot => kept_trans (h.slot n t i slot) (h'.slot n t i slot) h.alive h'.alive
  subscription := fun n t fd k selector =>
    kept_trans (h.subscription n t fd k selector) (h'.subscription n t fd k selector) h.alive h'.alive
  topic_mentions := fun fd hfd => h.topic_mentions fd (h'.topic_mentions fd hfd)
  session := fun k fd hk => h.session k fd (h'.session k fd hk)
  pidToFds := fun pid fd hfd => h.pidToFds pid fd (h'.pidToFds pid fd hfd)
  pidWatchers := fun pid fd hfd => h.pidWatchers pid fd (h'.pidWatchers pid fd hfd)
  watcherToPids := fun fd pid hpid => h.watcherToPids fd pid (h'.watcherToPids fd pid hpid)
  nextSerial_eq := h'.nextSerial_eq.trans h.nextSerial_eq
  trace := by
    obtain ⟨new, htrace, hnew⟩ := h.trace
    obtain ⟨new', htrace', hnew'⟩ := h'.trace
    refine ⟨new' ++ new, by rw [htrace', htrace, append_assoc], fun entry hentry => ?_⟩
    exact (mem_append.mp hentry).elim (hnew' entry) (hnew entry)

/-- A state that differs in the connections and the trace only. -/
theorem Shrinks.of_tables (hprofile : ∀ fd, s'.profile? fd = s.profile? fd)
    (hsize : s'.clients.size = s.clients.size) (hpidToFds : s'.pidToFds = s.pidToFds)
    (hpidWatchers : ∀ pid fd, fd ∈ s'.pidWatchers.values pid → fd ∈ s.pidWatchers.values pid)
    (hwatcherToPids : s'.watcherToPids = s.watcherToPids) (hregistry : s'.registry = s.registry)
    (hwatch : s'.watchNotifier = s.watchNotifier) (htopic : s'.topicManager = s.topicManager)
    (hsessions : s'.runtimeSessions = s.runtimeSessions) (hserial : s'.nextSerial = s.nextSerial)
    (htrace : ∃ new, s'.trace = new ++ s.trace ∧ ∀ entry ∈ new, entry.Passing) : Shrinks s s' := by
  have halive : ∀ fd, s'.Alive fd ↔ s.Alive fd := fun fd => by
    rw [alive_iff_profile, alive_iff_profile, hprofile]
  refine ⟨fun fd p hp => hprofile fd ▸ hp, hsize.le, fun n k entry => ?_, fun key group => ?_,
    fun n t i slot => ?_, fun n t fd k selector => ?_, fun fd hfd => htopic ▸ hfd,
    fun k fd hk => hsessions ▸ hk, fun pid fd hfd => hpidToFds ▸ hfd, hpidWatchers,
    fun fd pid hpid => hwatcherToPids ▸ hpid, hserial, htrace⟩
  · rw [hregistry, halive]
    exact (and_iff_left id).symm
  · rw [hwatch, halive]
    exact (and_iff_left id).symm
  · rw [htopic, halive]
    exact (and_iff_left id).symm
  · rw [htopic, halive]
    exact (and_iff_left id).symm

theorem Touches.shrinks (h : Touches s s') : Shrinks s s' := by
  refine .of_tables h.profile_eq h.size_eq h.pidToFds_eq (fun pid fd hfd => h.pidWatchers_eq ▸ hfd)
    h.watcherToPids_eq h.registry_eq h.watchNotifier_eq h.topicManager_eq h.runtimeSessions_eq
    h.nextSerial_eq ?_
  obtain ⟨new, htrace, hnew⟩ := h.trace_eq
  refine ⟨new, htrace, fun entry hentry => ?_⟩
  obtain ⟨fd, content, rfl⟩ := hnew entry hentry
  trivial

theorem shrinks_record (hentry : entry.Passing) :
    Shrinks s (s.record entry) :=
  .of_tables (fun _ => rfl) rfl rfl (fun _ _ => id) rfl rfl rfl rfl rfl rfl
    ⟨[entry], rfl, by simpa using hentry⟩

theorem shrinks_unwatch (s : App) (fd : Int) (pid : UInt32) :
    Shrinks s
      { s with pidWatchers := s.pidWatchers.update pid fun fds => fds.filter (· ≠ fd) } := by
  refine .of_tables (fun _ => rfl) rfl rfl (fun pid' fd' hfd => ?_) rfl rfl rfl rfl rfl rfl
    ⟨[], rfl, by simp⟩
  rw [ListIndex.values_update _ _ _ rfl] at hfd
  split_ifs at hfd with hpid
  · exact hpid ▸ (List.mem_filter.mp hfd).1
  · exact hfd

variable {pid : UInt32} {fd' : Int}

/-! ### The two halves of a close -/

section
variable (s : App) (fd : Int) (conn : ClientConnection)

/-- What the second half leaves alone. -/
theorem forget_frame :
    (s.forget fd conn).clients = s.clients ∧ (s.forget fd conn).registry = s.registry ∧
      (s.forget fd conn).runtimeSessions = s.runtimeSessions ∧
      (s.forget fd conn).nextSerial = s.nextSerial ∧ (s.forget fd conn).trace = s.trace ∧
      (s.forget fd conn).watchNotifier = s.watchNotifier.removeSubscriber fd ∧
      (s.forget fd conn).topicManager = s.topicManager.removeByFd fd := by
  simp only [forget]
  split_ifs
  · exact ⟨rfl, rfl, rfl, rfl, rfl, rfl, rfl⟩
  · exact ⟨rfl, rfl, rfl, rfl, rfl, rfl, rfl⟩
  · exact ⟨rfl, rfl, rfl, rfl, rfl, rfl, rfl⟩

theorem alive_detach (notify : Bool) (fd' : Int) :
    (s.detach fd conn notify).2.Alive fd' ↔ fd' ≠ fd ∧ s.Alive fd' := by
  simp only [App.Alive, detach, Table.getElem?_erase]
  by_cases hfd : fd = fd'
  · simp [hfd]
  · simp [hfd, Ne.symm hfd]

theorem profile?_detach (notify : Bool) (fd' : Int) :
    (s.detach fd conn notify).2.profile? fd' = if fd = fd' then none else s.profile? fd' := by
  simp only [profile?, detach, Table.getElem?_erase]
  split_ifs with hfd
  · rfl
  · rfl

theorem mem_pidToFds_forget : fd' ∈ (s.forget fd conn).pidToFds.values pid ↔
      fd' ∈ s.pidToFds.values pid ∧ ¬ (conn.runtimeRegistered = true ∧ conn.pid = pid ∧ fd' = fd) := by
  have hremoved : fd' ∈ (s.pidToFds.update conn.pid fun fds => fds.filter (· ≠ fd)).values pid ↔
      fd' ∈ s.pidToFds.values pid ∧ ¬ (conn.pid = pid ∧ fd' = fd) := by
    rw [ListIndex.values_update _ _ _ rfl]
    split_ifs with hpid
    · simp [hpid]
    · simp [hpid]
  simp only [forget]
  split_ifs with hregistered
  · exact hremoved.trans (by simp [hregistered])
  · exact hremoved.trans (by simp [hregistered])
  · simp [hregistered]

/-- Either the watch relations are as they were, or those of the process are gone on both sides. -/
theorem watchers_forget : ((s.forget fd conn).pidWatchers = s.pidWatchers ∧
        (s.forget fd conn).watcherToPids = s.watcherToPids) ∨
      ((∀ pid, (s.forget fd conn).pidWatchers.values pid =
          if conn.pid = pid then [] else s.pidWatchers.values pid) ∧
        ∀ fd' pid, (s.forget fd conn).watcherToPids.Has fd' pid ↔
          ¬ (fd' ∈ s.pidWatchers.values conn.pid ∧ pid = conn.pid) ∧ s.watcherToPids.Has fd' pid) := by
  simp only [forget]
  split_ifs
  · exact .inl ⟨rfl, rfl⟩
  · exact .inr ⟨fun pid => ListIndex.values_eraseKey _ _ _,
      fun fd' pid => (has_foldl_remove id (s.pidWatchers.values conn.pid) conn.pid pid fd'
        s.watcherToPids).trans (by simp [and_comm])⟩
  · exact .inl ⟨rfl, rfl⟩

theorem mem_pidWatchers_forget (h : fd' ∈ (s.forget fd conn).pidWatchers.values pid) :
    fd' ∈ s.pidWatchers.values pid := by
  rcases watchers_forget s fd conn with ⟨hsame, -⟩ | ⟨hvalues, -⟩
  · exact hsame ▸ h
  · rw [hvalues] at h
    split_ifs at h
    · cases h
    · exact h

theorem has_watcherToPids_forget (h : (s.forget fd conn).watcherToPids.Has fd' pid) :
    s.watcherToPids.Has fd' pid := by
  rcases watchers_forget s fd conn with ⟨-, hsame⟩ | ⟨-, hhas⟩
  · exact hsame ▸ h
  · exact ((hhas fd' pid).mp h).2

end

section
variable {s s₁ s₂ : App} {fd : Int} {conn : ClientConnection} {notify : Bool}

theorem alive_forgotten (fd' : Int) : (s.forgotten fd conn).Alive fd' ↔ s.Alive fd' := by
  simp only [App.Alive, forgotten, (forget_frame s fd conn).1]

theorem not_alive_close (hD : Shrinks (s.detach fd conn notify).2 s₁)
    (hF : Shrinks (s₁.forgotten fd conn) s₂) : ¬ s₂.Alive fd := fun halive =>
  ((alive_detach s fd conn notify fd).mp (hD.alive ((alive_forgotten fd).mp (hF.alive halive)))).1 rfl

/-- Something with an owner that goes on one of the halves of the close when the owner does. -/
theorem kept_close {owner : Int} {P PD P₁ PF P₂ first second : Prop} (hconn : s.clients[fd]? = some conn)
    (hD : Shrinks (s.detach fd conn notify).2 s₁) (hF : Shrinks (s₁.forgotten fd conn) s₂)
    (hPD : PD ↔ P ∧ (first → owner ≠ fd))
    (h₁ : P₁ ↔ PD ∧ ((s.detach fd conn notify).2.Alive owner → s₁.Alive owner))
    (hPF : PF ↔ P₁ ∧ (second → owner ≠ fd))
    (h₂ : P₂ ↔ PF ∧ ((s₁.forgotten fd conn).Alive owner → s₂.Alive owner))
    (hone : first ∨ second) : P₂ ↔ P ∧ (s.Alive owner → s₂.Alive owner) := by
  rw [alive_detach] at h₁
  rw [alive_forgotten] at h₂
  have hback : s₂.Alive owner → s₁.Alive owner := fun h => (alive_forgotten owner).mp (hF.alive h)
  have hback' : s₁.Alive owner → s.Alive owner := fun h =>
    ((alive_detach s fd conn notify owner).mp (hD.alive h)).2
  constructor
  · intro hP₂
    obtain ⟨hF₁, halive₂⟩ := h₂.mp hP₂
    obtain ⟨hP₁, hsecond⟩ := hPF.mp hF₁
    obtain ⟨hD₁, halive₁⟩ := h₁.mp hP₁
    obtain ⟨hP, hfirst⟩ := hPD.mp hD₁
    exact ⟨hP, fun h => halive₂ (halive₁ ⟨hone.elim hfirst hsecond, h⟩)⟩
  · rintro ⟨hP, halive⟩
    have hne : owner ≠ fd := by
      rintro rfl
      exact not_alive_close hD hF (halive ⟨conn, hconn⟩)
    have hP₁ := h₁.mpr ⟨hPD.mpr ⟨hP, fun _ => hne⟩, fun h => hback (halive h.2)⟩
    exact h₂.mpr ⟨hPF.mpr ⟨hP₁, fun _ => hne⟩, fun h => halive (hback' h)⟩

/-- A close as a whole. -/
theorem shrinks_close (hconn : s.clients[fd]? = some conn)
    (hD : Shrinks (s.detach fd conn notify).2 s₁) (hF : Shrinks (s₁.forgotten fd conn) s₂) :
    Shrinks s s₂ := by
  obtain ⟨hclients, hregistry, hsessions, hserial, htrace, hwatch, htopic⟩ := forget_frame s₁ fd conn
  have hkept : ∀ {P Q : Prop}, P ↔ P ∧ (False → Q) := by simp
  refine ⟨fun fd' p hp => ?_, ?_, fun n k entry => ?_, fun key group => ?_, fun n t i slot => ?_,
    fun n t fd' k selector => ?_, fun fd' hfd => ?_, fun k fd' hk => ?_, fun pid fd' hfd => ?_,
    fun pid fd' hfd => ?_, fun fd' pid hpid => ?_, ?_, ?_⟩
  · have hp₁ : s₁.profile? fd' = some p := by
      have hpF := hF.profile fd' p hp
      rwa [profile?, forgotten, hclients] at hpF
    have hpD := hD.profile fd' p hp₁
    rw [profile?_detach] at hpD
    split_ifs at hpD
    exact hpD
  · have hsize : (s₁.forgotten fd conn).clients.size = s₁.clients.size :=
      congrArg (fun t : Table Int ClientConnection => t.size) hclients
    refine le_trans hF.size_le (le_trans hsize.le (le_trans hD.size_le ?_))
    exact size_erase_le
  · have hsame : (s₁.forgotten fd conn).registry = s₁.registry := hregistry
    refine kept_close hconn hD hF ?_ (hD.registry n k entry) (by rw [hsame]; exact hkept)
      (hF.registry n k entry) (.inl trivial)
    rw [detach, findEntry_removeByFd, filter_eq_some_iff, decide_eq_true_iff, true_imp_iff]
  · refine kept_close hconn hD hF hkept (hD.group key group) ?_ (hF.group key group) (.inr trivial)
    rw [forgotten, hwatch, group?_removeSubscriber]
    split_ifs with hfd <;> simp [hfd]
  · refine kept_close hconn hD hF hkept (hD.slot n t i slot) ?_ (hF.slot n t i slot) (.inr trivial)
    rw [forgotten, htopic, TopicManager.slot?_removeByFd, filter_eq_some_iff, decide_eq_true_iff,
      true_imp_iff]
  · refine kept_close hconn hD hF hkept (hD.subscription n t fd' k selector) ?_
      (hF.subscription n t fd' k selector) (.inr trivial)
    rw [forgotten, htopic, TopicManager.subscription?_removeByFd]
    split_ifs with hfd <;> simp [hfd, eq_comm]
  · have hfd := hF.topic_mentions fd' hfd
    rw [forgotten, htopic] at hfd
    exact hD.topic_mentions fd' (TopicManager.mentions_removeByFd hfd).2
  · have hk := hF.session k fd' hk
    rw [forgotten, hsessions] at hk
    have hk := hD.session k fd' hk
    simp only [detach] at hk
    split_ifs at hk
    · exact (Table.of_erase hk).2
    · exact hk
  · have hfd := ((mem_pidToFds_forget s₁ fd conn).mp (hF.pidToFds pid fd' hfd)).1
    exact hD.pidToFds pid fd' hfd
  · exact hD.pidWatchers pid fd' (mem_pidWatchers_forget s₁ fd conn (hF.pidWatchers pid fd' hfd))
  · have hpid := (has_eraseKey.mp (hF.watcherToPids fd' pid hpid)).2
    exact hD.watcherToPids fd' pid (has_watcherToPids_forget s₁ fd conn hpid)
  · exact hF.nextSerial_eq.trans (hserial.trans hD.nextSerial_eq)
  · obtain ⟨new₂, htrace₂, hnew₂⟩ := hF.trace
    obtain ⟨new₁, htrace₁, hnew₁⟩ := hD.trace
    refine ⟨new₂ ++ (new₁ ++ ((if notify then [] else (s.registry.removeByFd fd).1.map
      fun identity => TraceEntry.serviceDropped identity.name identity.instanceId) ++
        [.closed fd conn.serial])), ?_, fun entry hentry => ?_⟩
    · rw [htrace₂, forgotten, htrace, htrace₁]
      simp [detach]
    simp only [mem_append, mem_singleton] at hentry
    rcases hentry with hentry | hentry | hentry | rfl
    · exact hnew₂ entry hentry
    · exact hnew₁ entry hentry
    · split_ifs at hentry
      · cases hentry
      · obtain ⟨identity, -, rfl⟩ := List.mem_map.mp hentry
        trivial
    · trivial

end

theorem Nested.shrinks (h : Nested ok s s') :
    Shrinks s s' := by
  induction h with
  | refl s => exact (Touches.refl s).shrinks
  | trans _ _ ih ih' => exact ih.trans ih'
  | touch htouch => exact htouch.shrinks
  | hand fd sequence out _ _ => exact shrinks_record trivial
  | unwatch fd pid _ => exact shrinks_unwatch _ fd pid
  | close fd conn notify hconn _ _ _ _ ih ih' => exact shrinks_close hconn ih ih'

/-! ### Sending -/

theorem alive_of_touches (h : Touches s s') : s'.Alive fd ↔ s.Alive fd := by
  rw [alive_iff_profile, alive_iff_profile, h.profile_eq]

theorem touches_takeOutcome (s : App) (offered : Nat) : Touches s (s.takeOutcome offered).2 := by
  unfold takeOutcome
  split
  · exact Touches.refl s
  · exact touches_plan s _
  · exact touches_plan s _

/-- A frame is queued or sent, or its connection is closed. -/
theorem sendFrame_cases (close : Int → App → App)
    (hconn : s.clients[fd]? = some conn) (frame : Bytes) : ∃ s', Touches s s' ∧
      (s.sendFrame close fd conn frame = s' ∨ s.sendFrame close fd conn frame = close fd s') := by
  unfold sendFrame
  split_ifs with hpending hoverflow
  · exact ⟨s, Touches.refl s, .inr rfl⟩
  · refine ⟨_, touches_setClient hconn ?_, .inl rfl⟩
    rfl
  have htake := touches_takeOutcome s frame.length
  rcases houtcome : s.takeOutcome frame.length with ⟨_ | sent, s'⟩
  · rw [houtcome] at htake
    exact ⟨s', htake, .inr rfl⟩
  rw [houtcome] at htake
  have htouch : Touches s (s'.record (.transmitted fd (frame.take sent))) :=
    htake.trans (touches_transmitted s' fd _)
  simp only
  split_ifs
  · -- the plan does not concern the clients
    have hconn' : (s'.record (.transmitted fd (frame.take sent))).clients[fd]? = some conn := by
      have hclients : (s.takeOutcome frame.length).2.clients = s.clients := by
        unfold takeOutcome
        split
        · rfl
        · rfl
        · rfl
      rw [houtcome] at hclients
      exact (congrArg (fun t : Table Int ClientConnection => t[fd]?) hclients).trans hconn
    refine ⟨_, htouch.trans (touches_setClient hconn' ?_), .inl rfl⟩
    rfl
  · exact ⟨_, htouch, .inl rfl⟩

/-- Nothing is sent, or the message is handed over and, if it cannot be sent, its connection closed. -/
theorem sendMessage_cases (close : Int → App → App) (s : App) (fd : Int) (sequence : UInt32)
    (out : Outgoing) :
    (s.sendMessage close fd sequence out = s ∧ (s.Alive fd → out.message sequence = none)) ∨
      (s.Alive fd ∧ ∃ s', Touches (s.record (.handed fd sequence out)) s' ∧
        (s.sendMessage close fd sequence out = s' ∨
          s.sendMessage close fd sequence out = close fd s')) := by
  unfold sendMessage
  rcases hconn : s.clients[fd]? with _ | conn
  · refine .inl ⟨rfl, fun halive => ?_⟩
    exact absurd hconn (fun hnone => not_alive_iff.mpr hnone halive)
  rcases hmessage : out.message sequence with _ | msg
  · exact .inl ⟨rfl, fun _ => rfl⟩
  refine .inr ⟨⟨conn, hconn⟩, ?_⟩
  simp only
  rcases hserialize : msg.serialize .succeeds Buffer.init with ⟨_ | _, output⟩
  · exact ⟨_, Touches.refl _, .inl rfl⟩
  · exact sendFrame_cases close (s := s.record (.handed fd sequence out)) hconn output.bytes

variable {out : Outgoing}

section
variable {ok : ServiceRegistry → Outgoing → Prop} {close : Int → App → App} {bound : Nat}

/-- What a function that closes connections has to satisfy as long as there are not too many. -/
structure Closes (ok : ServiceRegistry → Outgoing → Prop) (bound : Nat)
    (close : Int → App → App) : Prop where
  nested : ∀ fd s, s.clients.size ≤ bound → Nested ok s (close fd s)
  not_alive : ∀ fd s, s.clients.size ≤ bound → ¬ (close fd s).Alive fd

/-- A loop whose turns are nested is nested. -/
theorem nested_foldl {α : Type} (step : App → α → App) (xs : List α)
    (hsize : s.clients.size ≤ bound)
    (hstep : ∀ x ∈ xs, ∀ s', Nested ok s s' → s'.clients.size ≤ bound → Nested ok s' (step s' x)) :
    Nested ok s (xs.foldl step s) := by
  induction xs generalizing s with
  | nil => exact .refl s
  | cons x xs ih =>
    have hfirst := hstep x (mem_cons_self ..) s (.refl s) hsize
    refine hfirst.trans (ih (hfirst.shrinks.size_le.trans hsize) fun y hy s' hs' hsize' => ?_)
    exact hstep y (mem_cons_of_mem x hy) s' (hfirst.trans hs') hsize'

variable (hclose : Closes ok bound close)
include hclose

theorem nested_sendMessage (hsize : s.clients.size ≤ bound) (fd : Int) (sequence : UInt32)
    (hok : ok s.registry out) : Nested ok s (s.sendMessage close fd sequence out) := by
  rcases sendMessage_cases close s fd sequence out with ⟨hsame, -⟩ | ⟨halive, s', htouch, hdone⟩
  · rw [hsame]
    exact .refl s
  have hhanded : Nested ok s s' := .trans (.hand fd sequence out halive hok) (.touch htouch)
  rcases hdone with hdone | hdone
  · rw [hdone]
    exact hhanded
  · rw [hdone]
    exact hhanded.trans (hclose.nested fd s' (le_trans hhanded.shrinks.size_le hsize))

/-- A client that is still there after a message to it was handed that message last. -/
theorem sendMessage_alive (hsize : s.clients.size ≤ bound) {sequence : UInt32}
    (hout : out.message sequence ≠ none) (halive : (s.sendMessage close fd sequence out).Alive fd) :
    Touches (s.record (.handed fd sequence out)) (s.sendMessage close fd sequence out) := by
  rcases sendMessage_cases close s fd sequence out with ⟨hsame, hnone⟩ | ⟨-, s', htouch, hdone⟩
  · exact absurd (hnone (hsame ▸ halive)) hout
  · rcases hdone with hdone | hdone
    · exact hdone ▸ htouch
    · have hsize' : s'.clients.size ≤ bound := le_trans htouch.size_eq.le hsize
      exact absurd (hdone ▸ halive) (hclose.not_alive fd s' hsize')

theorem nested_sendProactive (hsize : s.clients.size ≤ bound) (fd : Int)
    (hok : ok s.registry out) : Nested ok s (s.sendProactive close fd out) := by
  have htouch := touches_nextSMProactiveSequence s
  refine (Nested.touch htouch).trans (nested_sendMessage hclose (htouch.size_eq.le.trans hsize) fd _ ?_)
  exact htouch.registry_eq ▸ hok

theorem sendProactive_alive (hsize : s.clients.size ≤ bound)
    (hout : ∀ sequence, out.message sequence ≠ none)
    (halive : (s.sendProactive close fd out).Alive fd) : ∃ sequence s', Touches s s' ∧
      Touches (s'.record (.handed fd sequence out)) (s.sendProactive close fd out) := by
  have htouch := touches_nextSMProactiveSequence s
  exact ⟨_, _, htouch,
    sendMessage_alive hclose (htouch.size_eq.le.trans hsize) (hout _) halive⟩

theorem nested_sendServiceWatchNotify (hsize : s.clients.size ≤ bound) (fd : Int)
    (watchId : UInt64) (identity : ServiceIdentity) (online : Bool)
    (hok : ok s.registry (.serviceWatchNotify watchId identity online)) :
    Nested ok s (s.sendServiceWatchNotify close fd watchId identity online) := by
  unfold sendServiceWatchNotify
  split_ifs
  · exact nested_sendProactive hclose hsize fd hok
  · exact .refl s

/-- `hok` is asked of every registry that has lost entries since. -/
theorem nested_notifyServiceWatch (hsize : s.clients.size ≤ bound) (hok : ∀ s', Shrinks s s' → ∀ watchId,
      ok s'.registry (.serviceWatchNotify watchId identity online)) :
    Nested ok s (s.notifyServiceWatch close identity online) :=
  nested_foldl _ _ hsize fun group _ s' hs' hsize' =>
    nested_sendServiceWatchNotify hclose hsize' group.subscriberFd group.watchId identity online
      (hok s' hs'.shrinks group.watchId)

end

/-! ### The last word -/

section
variable {key : WatchKey} {n i : Bytes}

/-- An entry that is no word to the group about the instance. -/
def TraceEntry.Mute (key : WatchKey) (n i : Bytes) : TraceEntry → Prop
  | .handed fd _ (.serviceWatchNotify watchId identity _) =>
    ¬ (fd = key.fd ∧ watchId = key.watchId ∧ identity.name = n ∧ identity.instanceId = i)
  | .watchSubscribed fd watchId => ¬ (fd = key.fd ∧ watchId = key.watchId)
  | _ => True

theorem lastSaid_cons_mute (h : entry.Mute key n i) (trace : List TraceEntry) :
    lastSaid key n i (entry :: trace) = lastSaid key n i trace := by
  cases entry with
  | handed fd sequence out =>
    cases out with
    | serviceWatchNotify watchId identity online => exact if_neg h
    | _ => rfl
  | watchSubscribed fd watchId => exact if_neg h
  | _ => rfl

theorem lastSaid_append_mute {new : List TraceEntry} (h : ∀ entry ∈ new, entry.Mute key n i)
    (trace : List TraceEntry) : lastSaid key n i (new ++ trace) = lastSaid key n i trace := by
  induction new with
  | nil => rfl
  | cons entry new ih =>
    rw [cons_append, lastSaid_cons_mute (h entry (mem_cons_self ..))]
    exact ih fun entry hentry => h entry (mem_cons_of_mem _ hentry)

theorem Touches.lastSaid_eq (h : Touches s s') :
    lastSaid key n i s'.trace = lastSaid key n i s.trace := by
  obtain ⟨new, htrace, hnew⟩ := h.trace_eq
  rw [htrace]
  refine lastSaid_append_mute (fun entry hentry => ?_) _
  obtain ⟨fd, content, rfl⟩ := hnew entry hentry
  trivial

theorem lastSaid_detach (s : App) (fd : Int) (conn : ClientConnection) (notify : Bool) :
    lastSaid key n i (s.detach fd conn notify).2.trace = lastSaid key n i s.trace := by
  simp only [detach]
  rw [lastSaid_append_mute, lastSaid_cons_mute]
  · trivial
  intro entry hentry
  split_ifs at hentry
  · cases hentry
  · obtain ⟨identity, -, rfl⟩ := List.mem_map.mp hentry
    trivial

/-- The second registry has everything the first one has. -/
def ServiceRegistry.Within (r r' : ServiceRegistry) : Prop :=
  ∀ n k entry, r.findEntry n k = some entry → r'.findEntry n k = some entry

theorem Shrinks.within (h : Shrinks s s') : s'.registry.Within s.registry :=
  fun n k entry hentry => ((h.registry n k entry).mp hentry).1

theorem within_forgotten (s : App) (fd : Int) (conn : ClientConnection) :
    (s.forgotten fd conn).registry = s.registry := (forget_frame s fd conn).2.1

/-- Whatever may be said about the instance while the registry still has what `r` has is `online`. -/
def Says (ok : ServiceRegistry → Outgoing → Prop) (n i : Bytes) (online : Bool)
    (r : ServiceRegistry) : Prop :=
  ∀ registry : ServiceRegistry, r.Within registry → ∀ watchId identity said,
    ok registry (.serviceWatchNotify watchId identity said) → identity.name = n →
      identity.instanceId = i → said = online

/-- With only one thing to say, the last word stays. -/
theorem Nested.lastSaid_kept
    (h : Nested ok s s') (hword : Says ok n i online s'.registry)
    (hlast : lastSaid key n i s.trace = some online) : lastSaid key n i s'.trace = some online := by
  induction h with
  | refl s => exact hlast
  | trans _ hsecond ih ih' =>
    refine ih' hword (ih (fun registry hwithin => hword registry fun n k entry hentry => ?_) hlast)
    exact hwithin n k entry (hsecond.shrinks.within n k entry hentry)
  | touch htouch => exact htouch.lastSaid_eq.trans hlast
  | @hand s fd sequence out halive hok =>
    by_cases hmute : (TraceEntry.handed fd sequence out).Mute key n i
    · exact (lastSaid_cons_mute hmute _).trans hlast
    -- only a notification can break the silence
    cases out with
    | serviceWatchNotify watchId identity said =>
      have hsame := not_not.mp hmute
      have hsaid := hword s.registry (fun _ _ _ => id) watchId identity said hok hsame.2.2.1
        hsame.2.2.2
      exact (if_pos hsame).trans (congrArg some hsaid)
    | _ => exact absurd trivial hmute
  | unwatch fd pid hgone => exact hlast
  | @close s s₁ s₂ fd conn notify hconn hnotify htold hstop hgone ih ih' =>
    have hword₁ : Says ok n i online s₁.registry := fun registry hwithin =>
      hword registry fun n k entry hentry => hwithin n k entry (by
        have hF := hstop.shrinks.within n k entry hentry
        rwa [within_forgotten] at hF)
    have hlast₁ := ih hword₁ ((lastSaid_detach s fd conn notify).trans hlast)
    refine ih' hword ?_
    rwa [show (s₁.forgotten fd conn).trace = s₁.trace from (forget_frame s₁ fd conn).2.2.2.2.1]

end

section
variable {ok : ServiceRegistry → Outgoing → Prop} {close : Int → App → App} {bound : Nat}
  {identity : ServiceIdentity} {online : Bool} (hclose : Closes ok bound close)
include hclose

/-- A watcher that is still there after a notification to it has it as its last word. -/
theorem sendServiceWatchNotify_alive (hsize : s.clients.size ≤ bound)
    {watchId : UInt64} (hok : ok s.registry (.serviceWatchNotify watchId identity online))
    (halive : (s.sendServiceWatchNotify close fd watchId identity online).Alive fd) :
    lastSaid ⟨fd, watchId⟩ identity.name identity.instanceId
      (s.sendServiceWatchNotify close fd watchId identity online).trace = some online := by
  have hbefore := (nested_sendServiceWatchNotify hclose hsize fd watchId _ _ hok).shrinks.alive halive
  unfold sendServiceWatchNotify at halive ⊢
  rw [if_pos (contains_iff.mpr hbefore)] at halive ⊢
  obtain ⟨sequence, s', -, htouch⟩ := sendProactive_alive hclose hsize
    (fun sequence => by simp [Outgoing.message, Outgoing.payload]) halive
  rw [htouch.lastSaid_eq]
  exact if_pos ⟨rfl, rfl, rfl, rfl⟩

theorem told_foldl (groups : List ServiceWatchGroup) (hsize : s.clients.size ≤ bound)
    (hok : ∀ s', Shrinks s s' → ∀ watchId,
      ok s'.registry (.serviceWatchNotify watchId identity online))
    (hword : Says ok identity.name identity.instanceId online
      (groups.foldl (fun s group =>
        s.sendServiceWatchNotify close group.subscriberFd group.watchId identity online) s).registry) (hgroup : group ∈ groups)
    (halive : (groups.foldl (fun s group =>
      s.sendServiceWatchNotify close group.subscriberFd group.watchId identity online) s).Alive
        group.subscriberFd) :
    lastSaid ⟨group.subscriberFd, group.watchId⟩ identity.name identity.instanceId
      (groups.foldl (fun s group =>
        s.sendServiceWatchNotify close group.subscriberFd group.watchId identity online) s).trace =
        some online := by
  induction groups generalizing s with
  | nil => cases hgroup
  | cons first groups ih =>
    have hok₀ := hok s (Touches.refl s).shrinks first.watchId
    have hfirst := nested_sendServiceWatchNotify hclose hsize first.subscriberFd first.watchId _ _ hok₀
    have hsize₁ := hfirst.shrinks.size_le.trans hsize
    have hok₁ := fun s' (hs' : Shrinks _ s') => hok s' (hfirst.shrinks.trans hs')
    rcases mem_cons.mp hgroup with rfl | hrest
    · have hloop := nested_foldl (fun s group =>
          s.sendServiceWatchNotify close group.subscriberFd group.watchId identity online) groups
        hsize₁ fun group _ s' hs' hsize' => nested_sendServiceWatchNotify hclose hsize' group.subscriberFd
          group.watchId _ _ (hok₁ s' hs'.shrinks group.watchId)
      exact hloop.lastSaid_kept hword
        (sendServiceWatchNotify_alive hclose hsize hok₀ (hloop.shrinks.alive halive))
    · exact ih hsize₁ hok₁ hword hrest halive

/-- After a notification every watcher that is still there has it as its last word. -/
theorem told_notifyServiceWatch (hsize : s.clients.size ≤ bound)
    (hok : ∀ s', Shrinks s s' → ∀ watchId, ok s'.registry (.serviceWatchNotify watchId identity online))
    (hword : Says ok identity.name identity.instanceId online
      (s.notifyServiceWatch close identity online).registry)
    {key : WatchKey}
    (hgroup : (s.notifyServiceWatch close identity online).watchNotifier.group? key = some group)
    (hmatch : group.matches identity = true)
    (halive : (s.notifyServiceWatch close identity online).Alive key.fd) :
    lastSaid key identity.name identity.instanceId
      (s.notifyServiceWatch close identity online).trace = some online := by
  have hshrinks := (nested_notifyServiceWatch hclose hsize hok).shrinks
  have hbefore := ((hshrinks.group key group).mp hgroup).1
  obtain ⟨hfd, hwatchId⟩ := stored_under hbefore
  have hkey : key = ⟨group.subscriberFd, group.watchId⟩ := by rw [hfd, hwatchId]
  subst hkey
  exact told_foldl hclose _ hsize hok hword
    (mem_matching.mpr ⟨_, hbefore, hmatch⟩) halive

/-! ### Diagnostic watches -/

omit hclose in
theorem nested_forEachPidConn (bound : Nat) (hsize : s.clients.size ≤ bound) (pid : UInt32)
    (exceptFd : Int) (visitor : Int → App → Bool × App)
    (hvisitor : ∀ fd s', s'.clients.size ≤ bound → Nested ok s' (visitor fd s').2) :
    Nested ok s (s.forEachPidConn pid exceptFd visitor).2 := by
  unfold forEachPidConn
  generalize s.pidToFds.values pid = fds
  generalize false = handled
  induction fds generalizing s handled with
  | nil => exact .refl s
  | cons fd fds ih =>
    simp only [foldl_cons]
    split_ifs
    · exact ih hsize handled
    · have hfirst := hvisitor fd s hsize
      exact hfirst.trans (ih (hfirst.shrinks.size_le.trans hsize) _)

section
variable (hstop : ∀ registry, ok registry .diagWatchStop)
include hstop

theorem nested_sendDiagWatchStopToPid
    (hsize : s.clients.size ≤ bound) (pid : UInt32) (exceptFd : Int) :
    Nested ok s (s.sendDiagWatchStopToPid close pid exceptFd) :=
  nested_forEachPidConn bound hsize pid exceptFd _ fun fd _ hsize' =>
    nested_sendProactive hclose hsize' fd (hstop _)

/-- A connection that is gone is taken out of the watchers of a process. -/
theorem stopTargetIfUnwatched_spec
    (hsize : s.clients.size ≤ bound) (pid : UInt32) (hgone : ¬ s.Alive fd) :
    Nested ok s (s.stopTargetIfUnwatched close pid fd) ∧
      fd ∉ (s.stopTargetIfUnwatched close pid fd).pidWatchers.values pid := by
  have hunwatch : Nested ok s _ := Nested.unwatch fd pid hgone
  have hout : fd ∉ (s.pidWatchers.update pid fun fds => fds.filter (· ≠ fd)).values pid := by
    rw [ListIndex.values_update _ _ _ rfl, if_pos rfl]
    simp
  simp only [stopTargetIfUnwatched]
  split_ifs
  · exact ⟨hunwatch, hout⟩
  · have hsend := nested_sendDiagWatchStopToPid hclose hstop
      (hunwatch.shrinks.size_le.trans hsize) pid fd
    exact ⟨hunwatch.trans hsend, fun hmem => hout (hsend.shrinks.pidWatchers pid fd hmem)⟩

theorem stopTargets_spec (pids : List UInt32) (hsize : s.clients.size ≤ bound) (hgone : ¬ s.Alive fd) :
    Nested ok s (pids.foldl (fun s pid => s.stopTargetIfUnwatched close pid fd) s) ∧
      ∀ pid ∈ pids, fd ∉
        (pids.foldl (fun s pid => s.stopTargetIfUnwatched close pid fd) s).pidWatchers.values pid := by
  induction pids generalizing s with
  | nil => exact ⟨.refl s, by simp⟩
  | cons pid pids ih =>
    obtain ⟨hfirst, hout⟩ := stopTargetIfUnwatched_spec hclose hstop hsize pid hgone
    obtain ⟨hrest, houts⟩ := ih (hfirst.shrinks.size_le.trans hsize)
      fun halive => hgone (hfirst.shrinks.alive halive)
    refine ⟨hfirst.trans hrest, fun pid' hpid => ?_⟩
    rcases mem_cons.mp hpid with rfl | hpid
    · exact fun hmem => hout (hrest.shrinks.pidWatchers pid' fd hmem)
    · exact houts pid' hpid

end

end

/-! ### Closing -/

theorem unprompted_diagWatchStop (registry : ServiceRegistry) : Unprompted registry .diagWatchStop :=
  ⟨nofun, rfl⟩

theorem unprompted_offline {registry : ServiceRegistry} (watchId : UInt64)
    (hgone : registry.findEntry identity.name identity.instanceId = none) :
    Unprompted registry (.serviceWatchNotify watchId identity false) := by
  refine ⟨fun watchId' identity' online heq => ?_, rfl⟩
  cases heq
  exact ⟨rfl, hgone⟩

theorem says_unprompted (n i : Bytes) (r : ServiceRegistry) : Says Unprompted n i false r :=
  fun _ _ _ _ _ hsaid _ _ => (hsaid.1 _ _ _ rfl).1

theorem Shrinks.findEntry_none (h : Shrinks s s') {n k : Bytes}
    (hnone : s.registry.findEntry n k = none) : s'.registry.findEntry n k = none := by
  rw [eq_none_iff_forall_not_mem]
  intro entry hentry
  rw [h.within n k entry hentry] at hnone
  cases hnone

/-- The instances a close takes out of the registry are gone from it. -/
theorem findEntry_detach_none {notify : Bool} (h : identity ∈ (s.detach fd conn notify).1) :
    (s.detach fd conn notify).2.registry.findEntry identity.name identity.instanceId = none := by
  obtain ⟨entry, hentry, howner, -⟩ := (mem_removeByFd _ _ _).mp h
  refine (findEntry_removeByFd _ _ _ _).trans ?_
  rw [hentry, filter_some, if_neg]
  simpa using howner

/-- The loop of a close over the instances that are gone. -/
theorem notifyRemoved_spec {close : Int → App → App} {bound : Nat} (hclose : Closes Unprompted bound close)
    (removed : List ServiceIdentity) (hsize : s.clients.size ≤ bound)
    (hremoved : ∀ identity ∈ removed,
      s.registry.findEntry identity.name identity.instanceId = none) :
    Nested Unprompted s (removed.foldl (fun s identity => s.notifyServiceRemoved close identity) s) ∧
      ∀ identity ∈ removed, ∀ key group,
        (removed.foldl (fun s identity => s.notifyServiceRemoved close identity)
          s).watchNotifier.group? key = some group → group.matches identity = true →
        (removed.foldl (fun s identity => s.notifyServiceRemoved close identity) s).Alive key.fd →
        lastSaid key identity.name identity.instanceId
          (removed.foldl (fun s identity => s.notifyServiceRemoved close identity) s).trace =
            some false := by
  induction removed generalizing s with
  | nil => exact ⟨.refl s, by simp⟩
  | cons first removed ih =>
    have hok : ∀ s', Shrinks s s' → ∀ watchId,
        Unprompted s'.registry (.serviceWatchNotify watchId first false) := fun s' hs' watchId =>
      unprompted_offline watchId (hs'.findEntry_none (hremoved first (mem_cons_self ..)))
    have hfirst : Nested Unprompted s (s.notifyServiceRemoved close first) :=
      nested_notifyServiceWatch hclose hsize hok
    obtain ⟨hrest, htold⟩ := ih (hfirst.shrinks.size_le.trans hsize) fun identity hidentity =>
      hfirst.shrinks.findEntry_none (hremoved identity (mem_cons_of_mem _ hidentity))
    refine ⟨hfirst.trans hrest, fun identity hidentity key group hgroup hmatch halive => ?_⟩
    rcases mem_cons.mp hidentity with rfl | hidentity
    · refine hrest.lastSaid_kept (says_unprompted _ _ _) ?_
      exact told_notifyServiceWatch hclose hsize hok (says_unprompted _ _ _)
        ((hrest.shrinks.group key group).mp hgroup).1 hmatch (hrest.shrinks.alive halive)
    · exact htold identity hidentity key group hgroup hmatch halive

/-- Closing with enough fuel is a close of the relation, and the connection is gone then. -/
theorem closeNested_spec (fuel : Nat) (fd : Int) (notify : Bool) (s : App)
    (hsize : s.clients.size ≤ fuel) : Nested Unprompted s (closeNested fuel fd notify s) ∧
      ¬ (closeNested fuel fd notify s).Alive fd := by
  induction fuel generalizing fd notify s with
  | zero =>
    refine ⟨.refl s, not_alive_iff.mpr ?_⟩
    have hempty : s.clients.isEmpty = true := by
      rw [isEmpty_eq_size_eq_zero]
      simpa using hsize
    exact Std.TreeMap.getElem?_eq_none (isEmpty_iff_forall_not_mem.mp hempty fd)
  | succ fuel ih =>
    have hclose : Closes Unprompted fuel fun fd s => closeNested fuel fd true s :=
      ⟨fun fd s hs => (ih fd true s hs).1, fun fd s hs => (ih fd true s hs).2⟩
    unfold closeNested
    rcases hconn : s.clients[fd]? with _ | conn
    · exact ⟨.refl s, not_alive_iff.mpr hconn⟩
    simp only
    have hsizeD : (s.detach fd conn notify).2.clients.size ≤ fuel := by
      have hmem : s.clients.contains fd = true := contains_iff.mpr ⟨conn, hconn⟩
      simp only [detach, size_erase, hmem, if_true]
      omega
    obtain ⟨hloop, htold⟩ := notifyRemoved_spec hclose (s.detach fd conn notify).1 hsizeD
      fun identity hidentity => findEntry_detach_none hidentity
    set s₁ := if notify = true then
        (s.detach fd conn notify).1.foldl (fun s identity =>
          s.notifyServiceRemoved (fun fd s => closeNested fuel fd true s) identity)
          (s.detach fd conn notify).2
      else (s.detach fd conn notify).2 with hs₁
    have hnotify : Nested Unprompted (s.detach fd conn notify).2 s₁ := by
      rw [hs₁]
      split_ifs
      · exact hloop
      · exact .refl _
    have htold₁ : notify = true → ∀ identity ∈ (s.detach fd conn notify).1, ∀ key group,
        s₁.watchNotifier.group? key = some group → group.matches identity = true →
        s₁.Alive key.fd →
        lastSaid key identity.name identity.instanceId s₁.trace = some false := by
      intro hnot
      rw [hs₁, if_pos hnot]
      exact htold
    have hgone : ¬ (s₁.forgotten fd conn).Alive fd := fun halive =>
      ((alive_detach s fd conn notify fd).mp
        (hnotify.shrinks.alive ((alive_forgotten fd).mp halive))).1 rfl
    have hsizeF : (s₁.forgotten fd conn).clients.size ≤ fuel :=
      le_trans (congrArg (fun t : Table Int ClientConnection => t.size)
        (forget_frame s₁ fd conn).1).le (hnotify.shrinks.size_le.trans hsizeD)
    obtain ⟨hstop, hout⟩ := stopTargets_spec hclose unprompted_diagWatchStop
      ((s₁.forget fd conn).watcherToPids.values fd) hsizeF hgone
    refine ⟨.close fd conn notify hconn hnotify htold₁ hstop fun pid hpid => ?_,
      fun halive => hgone (hstop.shrinks.alive halive)⟩
    exact hout pid (mem_values.mpr hpid)

/-- The bound of `closeClient` is always enough. -/
theorem closeClient_unprompted (fd : Int) (notify : Bool) (s : App) :
    Nested Unprompted s (s.closeClient fd notify) :=
  (closeNested_spec s.clients.size fd notify s le_rfl).1

theorem closeClient_spec (fd : Int) (notify : Bool) (s : App) :
    Nested Quiet s (s.closeClient fd notify) ∧ ¬ (s.closeClient fd notify).Alive fd :=
  ⟨(closeClient_unprompted fd notify s).mono fun _ _ => And.left,
    (closeNested_spec s.clients.size fd notify s le_rfl).2⟩

theorem closes_closeFailed
    (hok : ∀ registry out, Unprompted registry out → ok registry out) (bound : Nat) :
    Closes ok bound closeFailed :=
  ⟨fun fd s _ => (closeClient_unprompted fd true s).mono hok,
    fun fd s _ => (closeClient_spec fd true s).2⟩

end OmniBinder.ServiceManager
