/-
Module: OmniBinder.Proofs.SmCleanup
Purpose: What each change of the tables leaves alone. A connection that is closed leaves nothing behind,
  also when closing it closes others or is part of closing another one.
Trusted boundary: none
Main exports: alive_effect, mentions_alive_and_closed_once
-/
import OmniBinder.Proofs.SmSteps

namespace OmniBinder.ServiceManager

/-- The number of the connection behind a descriptor. -/
def App.serial? (s : App) (fd : Int) : Option Nat := (s.profile? fd).map ClientProfile.serial

variable {s : App} {fd : Int} (e : Effect)

theorem App.alive_iff_serial : s.Alive fd ↔ (s.serial? fd).isSome = true := by
  rw [alive_iff_profile, serial?, Option.isSome_map, Option.isSome_iff_exists]

theorem Greeted.serial_eq {conn : ClientConnection} {info : RuntimeInfo} {runtimeId : Bytes} {s' : App}
    (h : Greeted fd conn info runtimeId s s') (hconn : s.clients[fd]? = some conn) (fd' : Int) :
    s'.serial? fd' = s.serial? fd' := by
  rw [App.serial?, h.profile_eq]
  split_ifs with hfd
  · subst hfd
    rw [App.serial?, App.profile?, hconn]
    rfl
  · rfl

theorem alive_effect (hfits : e.Fits fd s) (fd' : Int) : (e.apply fd s).Alive fd' ↔ s.Alive fd' := by
  cases e with
  | greet =>
    rw [App.alive_iff_serial, App.alive_iff_serial, Effect.apply,
      (greeted_enterSession ..).serial_eq hfits]
  | _ => exact Iff.rfl

variable {fd' : Int}

theorem Steps.alive {ok : ServiceRegistry → Outgoing → Prop} {kinds : Effect → Prop} {s' : App}
    (h : Steps ok kinds fd s s') (halive : s'.Alive fd') : s.Alive fd' := by
  induction h with
  | sends h => exact h.nested.shrinks.alive halive
  | effect e _ hfits => exact (alive_effect e hfits fd').mp halive
  | trans _ _ ih ih' => exact ih (ih' halive)

theorem alive_releaseDisplaced {name : Bytes} {displacedFd newFd : Int}
    (h : (s.releaseDisplaced name displacedFd newFd).Alive fd) : s.Alive fd := by
  have hsteps : Steps Quiet (fun _ => True) newFd s (s.releaseDisplaced name displacedFd newFd) :=
    steps_releaseDisplaced s newFd quiet_of_unprompted (fun _ _ => trivial) name displacedFd newFd
  exact hsteps.alive h

/-- Only a registration and an unregistration change the registry. -/
theorem registry_effect (hregister : ∀ info, e ≠ .register info)
    (hunregister : ∀ identity, e ≠ .unregister identity) : (e.apply fd s).registry = s.registry := by
  cases e with
  | register info => exact absurd rfl (hregister info)
  | unregister identity => exact absurd rfl (hunregister identity)
  | greet => exact (greeted_enterSession ..).registry_eq
  | _ => rfl

variable {n k : Bytes}

/-- Only a registration brings an instance. -/
theorem findEntry_effect (hfits : e.Fits fd s) {entry : ServiceEntry}
    (h : (e.apply fd s).registry.findEntry n k = some entry) :
    (∃ info, e = .register info ∧ info.name = n ∧ info.instanceId = k ∧ entry.controlFd = fd ∧
        entry.info = info) ∨
      s.registry.findEntry n k = some entry := by
  cases e with
  | register info =>
    rcases s.registry.addService_cases info fd with ⟨hrefused, -⟩ | ⟨-, handle, hfind⟩
    · exact absurd hrefused hfits.2.1
    have h := (hfind n k).symm.trans h
    split_ifs at h with hsame
    · obtain rfl := Option.some.inj h
      exact .inl ⟨info, rfl, hsame.1, hsame.2, rfl, rfl⟩
    · exact .inr h
  | unregister identity =>
    have h := (s.registry.findEntry_removeServiceByIdentity identity n k).symm.trans h
    split_ifs at h
    exact .inr h
  | greet =>
    rw [Effect.apply, (greeted_enterSession ..).registry_eq] at h
    exact .inr h
  | _ => exact .inr h

variable {t i : Bytes}

/-- Only a publication brings a publisher. -/
theorem slot?_effect (hfits : e.Fits fd s) {slot : PublisherSlot}
    (h : (e.apply fd s).topicManager.slot? n t i = some slot) :
    (∃ topic info idlHash, e = .publish topic info idlHash ∧ info.name = n ∧ topic = t ∧
        info.instanceId = i ∧ slot = ⟨fd, info, idlHash⟩) ∨
      ((∀ info idlHash, e = .publish t info idlHash → ¬ (info.name = n ∧ info.instanceId = i)) ∧
        s.topicManager.slot? n t i = some slot) := by
  cases e with
  | publish topic info idlHash =>
    rcases s.topicManager.registerPublisher_cases topic info fd idlHash with
      ⟨hrefused, -⟩ | ⟨-, -, -, hslots⟩
    · exact absurd hfits.2.1 (hrefused ▸ Bool.false_ne_true)
    have h := (hslots n t i).symm.trans h
    split_ifs at h with hsame
    · exact .inl ⟨topic, info, idlHash, rfl, hsame.1, hsame.2.1, hsame.2.2, (Option.some.inj h).symm⟩
    · refine .inr ⟨fun info' idlHash' he hboth => hsame ?_, h⟩
      cases he
      exact ⟨hboth.1, rfl, hboth.2⟩
  | dropPublishers name owner =>
    have h := (s.topicManager.slot?_removePublishersByService name owner n t i).symm.trans h
    exact .inr ⟨by simp, (Option.filter_eq_some_iff.mp h).1⟩
  | unpublish topic =>
    have h := (s.topicManager.slot?_removePublisher hfits fd n t i).symm.trans h
    exact .inr ⟨by simp, (Option.filter_eq_some_iff.mp h).1⟩
  | subscribe topic selector =>
    exact .inr ⟨by simp, (s.topicManager.slot?_addSubscriber topic selector fd n t i).symm.trans h⟩
  | unsubscribe topic selector =>
    exact .inr ⟨by simp, (s.topicManager.slot?_removeSubscriber topic selector fd n t i).symm.trans h⟩
  | greet =>
    rw [Effect.apply, (greeted_enterSession ..).topicManager_eq] at h
    exact .inr ⟨by simp, h⟩
  | _ => exact .inr ⟨by simp, h⟩

/-- Only a subscription brings a subscriber. -/
theorem subscription?_effect (hother : ∀ topic selector, e ≠ .subscribe topic selector)
    {selector : TopicSubscriptionFilter}
    (h : (e.apply fd s).topicManager.subscription? n t fd' k = some selector) :
    s.topicManager.subscription? n t fd' k = some selector := by
  cases e with
  | subscribe topic selector => exact absurd rfl (hother topic selector)
  | publish topic info idlHash =>
    exact (s.topicManager.subscription?_registerPublisher topic info fd idlHash n t fd' k).symm.trans h
  | dropPublishers name owner =>
    have hsame := (TopicTables.prunes_removePublishersByService s.topicManager.tables name
      owner).subscription_eq n t fd' k
    exact hsame.symm.trans h
  | unpublish topic =>
    have hsame := (TopicTables.prunes_removePublisher s.topicManager.tables topic
      fd).subscription_eq n t fd' k
    exact hsame.symm.trans h
  | unsubscribe topic selector' =>
    rcases s.topicManager.subscription?_removeSubscriber topic selector' fd n t fd' k with
      hsame | ⟨-, -, -, -, hgone⟩
    · exact hsame.symm.trans h
    · exact absurd (hgone.symm.trans h) nofun
  | greet => rwa [Effect.apply, (greeted_enterSession ..).topicManager_eq] at h
  | _ => exact h

/-- Only a watch request brings a watch. -/
theorem group?_effect (hother : ∀ watchId filters, e ≠ .watch watchId filters) {key : WatchKey}
    {group : ServiceWatchGroup} (h : (e.apply fd s).watchNotifier.group? key = some group) :
    s.watchNotifier.group? key = some group := by
  cases e with
  | watch watchId filters => exact absurd rfl (hother watchId filters)
  | unwatch watchId =>
    have h := (s.watchNotifier.group?_unsubscribe fd watchId key).symm.trans h
    split_ifs at h
    exact h
  | greet => rwa [Effect.apply, (greeted_enterSession ..).watchNotifier_eq] at h
  | _ => exact h

/-- What a change puts on record. -/
def Effect.Records (fd : Int) (entry : TraceEntry) : Effect → Prop
  | register info => entry = .serviceRegistered info.name info.instanceId
  | watch watchId _ => entry = .watchSubscribed fd watchId
  | publish topic info _ => entry = .topicPublished info.name topic info.instanceId
  | subscribe topic selector =>
    entry = .topicSubscribed fd selector.publisherService topic selector.key
  | _ => False

theorem Effect.records_topicSubscribed {e : Effect} (h : e.Records fd (.topicSubscribed fd' n t k)) :
    ∃ selector, e = .subscribe t selector ∧ fd' = fd ∧ n = selector.publisherService ∧
      k = selector.key := by
  cases e with
  | subscribe topic selector =>
    cases h
    exact ⟨selector, rfl, rfl, rfl, rfl⟩
  | _ => cases h

theorem Effect.records_topicPublished {e : Effect} (h : e.Records fd (.topicPublished n t i)) :
    ∃ info idlHash, e = .publish t info idlHash ∧ n = info.name ∧ i = info.instanceId := by
  cases e with
  | publish topic info idlHash =>
    cases h
    exact ⟨info, idlHash, rfl, rfl, rfl⟩
  | _ => cases h

theorem trace_effect (s : App) (fd : Int) (e : Effect) :
    ∃ new, (e.apply fd s).trace = new ++ s.trace ∧ ∀ entry ∈ new, e.Records fd entry := by
  cases e with
  | subscribe topic selector =>
    simp only [Effect.apply]
    split_ifs
    · exact ⟨[_], rfl, fun entry hentry => List.mem_singleton.mp hentry⟩
    · exact ⟨[], rfl, List.forall_mem_nil _⟩
  | greet => exact ⟨[], (greeted_enterSession ..).trace_eq, List.forall_mem_nil _⟩
  | register _ | watch _ _ | publish _ _ _ =>
    exact ⟨[_], rfl, fun entry hentry => List.mem_singleton.mp hentry⟩
  | _ => exact ⟨[], rfl, List.forall_mem_nil _⟩

open List App SetIndex

variable {s : App} {fd : Int}

/-! ### Where a connection occurs -/

theorem mentions_iff : s.Mentions fd ↔ s.registry.Owns fd ∨ s.topicManager.Mentions fd ∨
      (∃ watchId group, s.watchNotifier.group? ⟨fd, watchId⟩ = some group) ∨
      (∃ pid, fd ∈ s.pidToFds.values pid) ∨ (∃ pid, fd ∈ s.pidWatchers.values pid) ∨
      ∃ pid, s.watcherToPids.Has fd pid := by
  unfold App.Mentions
  rw [ServiceRegistry.hasKey_iff_owns, or_self, ServiceWatchNotifier.mentions_iff,
    hasKey_iff]

variable {s' : App}

theorem Shrinks.mentions (h : Shrinks s s') (hfd : s'.Mentions fd) : s.Mentions fd := by
  rw [mentions_iff] at hfd ⊢
  refine Or.imp ?_ (Or.imp (h.topic_mentions fd) (Or.imp ?_ (Or.imp ?_ (Or.imp ?_ ?_)))) hfd
  · rintro ⟨n, k, entry, hentry, howner⟩
    exact ⟨n, k, entry, h.within n k entry hentry, howner⟩
  · rintro ⟨watchId, group, hgroup⟩
    exact ⟨watchId, group, ((h.group _ _).mp hgroup).1⟩
  · exact fun ⟨pid, hpid⟩ => ⟨pid, h.pidToFds pid fd hpid⟩
  · exact fun ⟨pid, hpid⟩ => ⟨pid, h.pidWatchers pid fd hpid⟩
  · exact fun ⟨pid, hpid⟩ => ⟨pid, h.watcherToPids fd pid hpid⟩

/-- The process of a connection and the watch relations can be found from the connection. The
    connections of `busy` are being closed and have lost their watch relations on one side already. -/
structure Linked (busy : Int → Prop) (s : App) : Prop where
  process : ∀ pid fd p, fd ∈ s.pidToFds.values pid → s.profile? fd = some p →
    p.runtimeRegistered = true ∧ p.pid = pid
  watcher : ∀ pid fd, ¬ busy fd → fd ∈ s.pidWatchers.values pid → s.watcherToPids.Has fd pid

variable {busy : Int → Prop}

theorem Linked.of_shrinks (h : Linked busy s) (hs : Shrinks s s')
    (hwatcher : ∀ fd pid, s.watcherToPids.Has fd pid → fd ∈ s'.pidWatchers.values pid → s'.watcherToPids.Has fd pid) :
    Linked busy s' where
  process := fun pid fd p hfd hp => h.process pid fd p (hs.pidToFds pid fd hfd) (hs.profile fd p hp)
  watcher := fun pid fd hbusy hfd =>
    hwatcher fd pid (h.watcher pid fd hbusy (hs.pidWatchers pid fd hfd)) hfd

theorem linked_detach (h : Linked busy s) (fd : Int) (conn : ClientConnection) (notify : Bool) :
    Linked busy (s.detach fd conn notify).2 where
  process := fun pid fd' p hfd hp => by
    rw [profile?_detach] at hp
    split_ifs at hp
    exact h.process pid fd' p hfd hp
  watcher := h.watcher

theorem linked_forgotten (h : Linked busy s) (fd : Int) (conn : ClientConnection) :
    Linked (fun fd' => busy fd' ∨ fd' = fd) (s.forgotten fd conn) where
  process := fun pid fd' p hfd hp => by
    have hclients : (s.forgotten fd conn).clients = s.clients := (forget_frame s fd conn).1
    rw [App.profile?, hclients] at hp
    exact h.process pid fd' p ((mem_pidToFds_forget s fd conn).mp hfd).1 hp
  watcher := fun pid fd' hbusy hfd => by
    rw [not_or] at hbusy
    refine has_eraseKey.mpr ⟨hbusy.2, ?_⟩
    have hbefore := h.watcher pid fd' hbusy.1 (mem_pidWatchers_forget s fd conn hfd)
    rcases watchers_forget s fd conn with ⟨-, hsame⟩ | ⟨hvalues, hhas⟩
    · rwa [hsame]
    -- where the process lost its watchers, the list it is looked for in is empty
    refine (hhas fd' pid).mpr ⟨fun hgone => ?_, hbefore⟩
    have hempty : (s.forget fd conn).pidWatchers.values pid = [] := by
      rw [hvalues, if_pos hgone.2.symm]
    change fd' ∈ (s.forget fd conn).pidWatchers.values pid at hfd
    rw [hempty] at hfd
    cases hfd

variable {conn : ClientConnection}

/-- The end of a close: the connection is in no watcher list any more. -/
theorem not_watcher_of_close {s₁ s₂ : App} (h₁ : Linked busy s₁) (hbusy : ¬ busy fd)
    (hF : Shrinks (s₁.forgotten fd conn) s₂)
    (hgone : ∀ pid, (s₁.forget fd conn).watcherToPids.Has fd pid → fd ∉ s₂.pidWatchers.values pid)
    (pid : UInt32) : fd ∉ s₂.pidWatchers.values pid := by
  intro hmem
  have hforget : fd ∈ (s₁.forget fd conn).pidWatchers.values pid := hF.pidWatchers pid fd hmem
  have hbefore := h₁.watcher pid fd hbusy (mem_pidWatchers_forget s₁ fd conn hforget)
  rcases watchers_forget s₁ fd conn with ⟨-, hsame⟩ | ⟨hvalues, hhas⟩
  · exact hgone pid (hsame ▸ hbefore) hmem
  · refine hgone pid ((hhas fd pid).mpr ⟨fun hboth => ?_, hbefore⟩) hmem
    rw [hvalues, if_pos hboth.2.symm] at hforget
    cases hforget

variable {ok : ServiceRegistry → Outgoing → Prop}

theorem Nested.linked (h : Nested ok s s') (hs : Linked busy s) : Linked busy s' := by
  induction h generalizing busy with
  | refl s => exact hs
  | trans _ _ ih ih' => exact ih' (ih hs)
  | touch htouch =>
    exact hs.of_shrinks htouch.shrinks fun fd pid hhas _ => htouch.watcherToPids_eq ▸ hhas
  | hand fd sequence out _ _ =>
    exact hs.of_shrinks (shrinks_record trivial) fun _ _ hhas _ => hhas
  | unwatch fd pid _ => exact hs.of_shrinks (shrinks_unwatch _ fd pid) fun _ _ hhas _ => hhas
  | @close s s₁ s₂ fd conn notify hconn _ _ hstop hgone ih ih' =>
    have h₁ := ih (linked_detach hs fd conn notify)
    have h₂ := ih' (linked_forgotten h₁ fd conn)
    refine ⟨h₂.process, fun pid fd' hbusy hfd => ?_⟩
    by_cases hsame : fd' = fd
    · subst hsame
      exact absurd hfd (not_watcher_of_close h₁ hbusy hstop.shrinks hgone pid)
    · exact h₂.watcher pid fd' (not_or.mpr ⟨hbusy, hsame⟩) hfd

/-! ### A closed connection is gone from everywhere -/

theorem not_mentions_close {s₁ s₂ : App} {notify : Bool} (hs : Linked busy s) (hbusy : ¬ busy fd)
    (hconn : s.clients[fd]? = some conn) (hD : Shrinks (s.detach fd conn notify).2 s₁)
    (h₁ : Linked busy s₁) (hF : Shrinks (s₁.forgotten fd conn) s₂)
    (hgone : ∀ pid, (s₁.forget fd conn).watcherToPids.Has fd pid → fd ∉ s₂.pidWatchers.values pid) :
    ¬ s₂.Mentions fd := by
  intro hmentions
  obtain ⟨-, -, -, -, -, -, htopic⟩ := forget_frame s₁ fd conn
  have hclose := shrinks_close hconn hD hF
  have hdead := not_alive_close hD hF
  rcases mentions_iff.mp hmentions with ⟨n, k, entry, hentry, howner⟩ | hmanager |
    ⟨watchId, group, hgroup⟩ | ⟨pid, hpid⟩ | ⟨pid, hpid⟩ | ⟨pid, hpid⟩
  · exact hdead (howner ▸ ((hclose.registry n k entry).mp hentry).2 (howner ▸ ⟨conn, hconn⟩))
  · have hmanager := hF.topic_mentions fd hmanager
    rw [forgotten, htopic] at hmanager
    exact (TopicManager.mentions_removeByFd hmanager).1 rfl
  · exact hdead (((hclose.group ⟨fd, watchId⟩ group).mp hgroup).2 ⟨conn, hconn⟩)
  · obtain ⟨hbefore, hkept⟩ := (mem_pidToFds_forget s₁ fd conn).mp (hF.pidToFds pid fd hpid)
    have hprofile : s.profile? fd = some conn.profile := by rw [App.profile?, hconn, Option.map_some]
    obtain ⟨hregistered, hpid⟩ := hs.process pid fd _ (hD.pidToFds pid fd hbefore) hprofile
    exact hkept ⟨hregistered, hpid, rfl⟩
  · exact not_watcher_of_close h₁ hbusy hF hgone pid hpid
  · exact (has_eraseKey.mp (hF.watcherToPids fd pid hpid)).1 rfl

theorem mentions_forgotten {fd' : Int} (h : (s.forgotten fd conn).Mentions fd') : s.Mentions fd' := by
  obtain ⟨-, hregistry, -, -, -, hwatch, htopic⟩ := forget_frame s fd conn
  rw [mentions_iff] at h ⊢
  refine Or.imp ?_ (Or.imp ?_ (Or.imp ?_ (Or.imp ?_ (Or.imp ?_ ?_)))) h
  · rw [forgotten, hregistry]
    exact id
  · rw [forgotten, htopic]
    exact fun hmanager => (TopicManager.mentions_removeByFd hmanager).2
  · rintro ⟨watchId, group, hgroup⟩
    rw [forgotten, hwatch, ServiceWatchNotifier.group?_removeSubscriber] at hgroup
    split_ifs at hgroup
    exact ⟨watchId, group, hgroup⟩
  · exact Exists.imp fun pid hpid => ((mem_pidToFds_forget s fd conn).mp hpid).1
  · exact Exists.imp fun pid => mem_pidWatchers_forget s fd conn
  · exact Exists.imp fun pid hpid => has_watcherToPids_forget s fd conn (has_eraseKey.mp hpid).2

/-- A connection that is closed on the way occurs nowhere afterwards. -/
theorem Nested.forgets (h : Nested ok s s') (hs : Linked busy s) (hbusy : ¬ busy fd)
    (halive : s.Alive fd) (hdead : ¬ s'.Alive fd) : ¬ s'.Mentions fd := by
  induction h generalizing busy with
  | refl s => exact absurd halive hdead
  | @trans s s' s'' hfirst hsecond ih ih' =>
    by_cases halive' : s'.Alive fd
    · exact ih' (hfirst.linked hs) hbusy halive' hdead
    · exact fun hmentions => ih hs hbusy halive halive' (hsecond.shrinks.mentions hmentions)
  | touch htouch => exact absurd ((alive_of_touches htouch).mpr halive) hdead
  | hand _ _ _ _ _ => exact absurd halive hdead
  | unwatch _ _ _ => exact absurd halive hdead
  | @close s s₁ s₂ fd' conn notify hconn hnotify _ hstop hgone ih ih' =>
    have hD := linked_detach hs fd' conn notify
    have h₁ := hnotify.linked hD
    by_cases hsame : fd = fd'
    · subst hsame
      exact not_mentions_close hs hbusy hconn hnotify.shrinks h₁ hstop.shrinks hgone
    have haliveD := (alive_detach s fd' conn notify fd).mpr ⟨hsame, halive⟩
    by_cases halive₁ : s₁.Alive fd
    · exact ih' (linked_forgotten h₁ fd' conn) (not_or.mpr ⟨hbusy, hsame⟩)
        ((alive_forgotten fd).mpr halive₁) hdead
    · -- closed before the second half, which brings nothing back
      have hclean := ih hD hbusy haliveD halive₁
      exact fun hmentions => hclean (mentions_forgotten (hstop.shrinks.mentions hmentions))

/-! ### Between events -/

/-- Between events: only clients occur in the tables. -/
structure Clean (s : App) : Prop where
  alive : ∀ fd, s.Mentions fd → s.Alive fd
  linked : Linked (fun _ => False) s

theorem Nested.clean (h : Nested ok s s') (hs : Clean s) : Clean s' where
  alive := fun fd hmentions => by
    by_contra hdead
    have halive := hs.alive fd (h.shrinks.mentions hmentions)
    exact h.forgets hs.linked not_false halive hdead hmentions
  linked := h.linked hs.linked

/-- A change that names no connection but its own, which is a client if it is new. -/
theorem Clean.of_effect (hs : Clean s) (fd : Int) (halive : ∀ fd', s'.Alive fd' ↔ s.Alive fd')
    (hmentions : ∀ fd', s'.Mentions fd' → s.Mentions fd' ∨ fd' = fd ∧ s.Alive fd)
    (hlinked : Linked (fun _ => False) s') : Clean s' where
  alive := fun fd' h => by
    rw [halive]
    rcases hmentions fd' h with hold | ⟨rfl, hfd⟩
    · exact hs.alive fd' hold
    · exact hfd
  linked := hlinked

/-- The tables one by one. -/
theorem mentions_imp {new : Prop} (hregistry : s'.registry.Owns fd → s.registry.Owns fd ∨ new)
    (htopic : s'.topicManager.Mentions fd → s.topicManager.Mentions fd ∨ new)
    (hwatch : ∀ watchId group, s'.watchNotifier.group? ⟨fd, watchId⟩ = some group → s.watchNotifier.group? ⟨fd, watchId⟩ = some group ∨ new)
    (hprocess : ∀ pid, fd ∈ s'.pidToFds.values pid → fd ∈ s.pidToFds.values pid ∨ new)
    (hwatchers : ∀ pid, fd ∈ s'.pidWatchers.values pid → fd ∈ s.pidWatchers.values pid ∨ new)
    (htargets : ∀ pid, s'.watcherToPids.Has fd pid → s.watcherToPids.Has fd pid ∨ new)
    (h : s'.Mentions fd) : s.Mentions fd ∨ new := by
  rw [mentions_iff] at h ⊢
  rcases h with h | h | ⟨watchId, group, h⟩ | ⟨pid, h⟩ | ⟨pid, h⟩ | ⟨pid, h⟩
  · exact (hregistry h).imp_left .inl
  · exact (htopic h).imp_left fun h => .inr (.inl h)
  · exact (hwatch watchId group h).imp_left fun h => .inr (.inr (.inl ⟨watchId, group, h⟩))
  · exact (hprocess pid h).imp_left fun h => .inr (.inr (.inr (.inl ⟨pid, h⟩)))
  · exact (hwatchers pid h).imp_left fun h =>
      .inr (.inr (.inr (.inr (.inl ⟨pid, h⟩))))
  · exact (htargets pid h).imp_left fun h =>
      .inr (.inr (.inr (.inr (.inr ⟨pid, h⟩))))

theorem linked_of_same (h : Linked busy s) (hclients : s'.clients = s.clients)
    (hprocess : s'.pidToFds = s.pidToFds) (hwatchers : s'.pidWatchers = s.pidWatchers)
    (htargets : s'.watcherToPids = s.watcherToPids) : Linked busy s' where
  process := fun pid fd p hfd hp => by
    rw [App.profile?, hclients] at hp
    exact h.process pid fd p (hprocess ▸ hfd) hp
  watcher := fun pid fd hbusy hfd => htargets ▸ h.watcher pid fd hbusy (hwatchers ▸ hfd)

theorem clean_greet {info : RuntimeInfo} {runtimeId : Bytes} (hs : Clean s)
    (hconn : s.clients[fd]? = some conn) (h : Greeted fd conn info runtimeId s s') : Clean s' := by
  refine hs.of_effect fd (fun fd' => ?_) (fun fd' hmentions => ?_) ⟨?_, ?_⟩
  · rw [alive_iff_serial, alive_iff_serial, h.serial_eq hconn]
  · refine mentions_imp ?_ ?_ ?_ ?_ ?_ ?_ hmentions
    · rw [h.registry_eq]
      exact .inl
    · rw [h.topicManager_eq]
      exact .inl
    · rw [h.watchNotifier_eq]
      exact fun _ _ => .inl
    · intro pid hpid
      rcases (h.mem_pidToFds pid fd').mp hpid with ⟨rfl, -⟩ | ⟨hold, -⟩
      · exact .inr ⟨rfl, conn, hconn⟩
      · exact .inl hold
    · rw [h.pidWatchers_eq]
      exact fun _ => .inl
    · rw [h.watcherToPids_eq]
      exact fun _ => .inl
  · intro pid fd' p hfd hp
    rw [h.profile_eq] at hp
    split_ifs at hp with hsame
    · subst hsame
      obtain rfl := Option.some.inj hp
      refine ⟨rfl, ?_⟩
      rcases (h.mem_pidToFds pid fd).mp hfd with ⟨-, hpid⟩ | ⟨hold, hkept⟩
      · exact hpid.symm
      -- an entry that stayed is of the process the connection had and still has
      obtain ⟨hregistered, hpid⟩ := hs.linked.process pid fd conn.profile hold
        (by rw [App.profile?, hconn, Option.map_some])
      by_contra hne
      exact hkept ⟨hregistered, fun hsame => hne (hsame.symm.trans hpid), hpid.symm, rfl⟩
    · rcases (h.mem_pidToFds pid fd').mp hfd with ⟨hfd', -⟩ | ⟨hold, -⟩
      · exact absurd hfd'.symm hsame
      · exact hs.linked.process pid fd' p hold hp
  · intro pid fd' hbusy hfd
    rw [h.watcherToPids_eq]
    exact hs.linked.watcher pid fd' hbusy (h.pidWatchers_eq ▸ hfd)

/-- A change that leaves the clients and the links between connections and processes alone. -/
theorem Clean.of_tables (hs : Clean s) (fd : Int) (hclients : s'.clients = s.clients)
    (hprocess : s'.pidToFds = s.pidToFds) (hwatchers : s'.pidWatchers = s.pidWatchers)
    (htargets : s'.watcherToPids = s.watcherToPids)
    (hregistry : ∀ fd', s'.registry.Owns fd' → s.registry.Owns fd' ∨ fd' = fd ∧ s.Alive fd)
    (htopic : ∀ fd', s'.topicManager.Mentions fd' → s.topicManager.Mentions fd' ∨ fd' = fd ∧ s.Alive fd)
    (hwatch : ∀ key group, s'.watchNotifier.group? key = some group → s.watchNotifier.group? key = some group ∨ key.fd = fd ∧ s.Alive fd) :
    Clean s' := by
  refine hs.of_effect fd (fun fd' => by rw [App.Alive, hclients]; rfl) (fun fd' => ?_)
    (linked_of_same hs.linked hclients hprocess hwatchers htargets)
  refine mentions_imp (hregistry fd') (htopic fd') (fun watchId group => hwatch ⟨fd', watchId⟩ group)
    ?_ ?_ ?_
  · exact fun pid h => .inl (hprocess ▸ h)
  · exact fun pid h => .inl (hwatchers ▸ h)
  · exact fun pid h => .inl (htargets ▸ h)

theorem clean_effect (e : Effect) (hfits : e.Fits fd s) (hs : Clean s) : Clean (e.apply fd s) := by
  have hregistry : ∀ fd', (e.apply fd s).registry.Owns fd' →
      s.registry.Owns fd' ∨ fd' = fd ∧ s.Alive fd := by
    rintro fd' ⟨n, k, entry, hentry, howner⟩
    rcases findEntry_effect e hfits hentry with ⟨info, rfl, -, -, hfd, -⟩ | hold
    · exact .inr ⟨howner.symm.trans hfd, hfits.1⟩
    · exact .inl ⟨n, k, entry, hold, howner⟩
  have htopic : ∀ fd', (e.apply fd s).topicManager.Mentions fd' →
      s.topicManager.Mentions fd' ∨ fd' = fd ∧ s.Alive fd := by
    intro fd' h
    cases e with
    | dropPublishers =>
      exact .inl (TopicManager.mentions_of_prunes (TopicTables.prunes_removePublishersByService _ _ _) h)
    | publish => exact (TopicManager.mentions_registerPublisher h).symm.imp_right (⟨·, hfits.1⟩)
    | unpublish =>
      exact .inl (TopicManager.mentions_of_prunes (TopicTables.prunes_removePublisher _ _ _) h)
    | subscribe => exact (TopicManager.mentions_addSubscriber h).symm.imp_right (⟨·, hfits⟩)
    | unsubscribe => exact .inl (TopicManager.mentions_removeSubscriber h)
    | greet =>
      rw [Effect.apply, (greeted_enterSession ..).topicManager_eq] at h
      exact .inl h
    | _ => exact .inl h
  have hwatch : ∀ key group, (e.apply fd s).watchNotifier.group? key = some group →
      s.watchNotifier.group? key = some group ∨ key.fd = fd ∧ s.Alive fd := by
    intro key group h
    cases e with
    | watch watchId filters =>
      rcases s.watchNotifier.subscribe_cases fd watchId filters with ⟨-, hsame⟩ | ⟨-, -, hgroups⟩
      · exact .inl (cast (congrArg (fun w : ServiceWatchNotifier => w.group? key = some group) hsame) h)
      · have h := (hgroups key).symm.trans h
        split_ifs at h with hkey
        · exact .inr ⟨hkey ▸ rfl, hfits.1⟩
        · exact .inl h
    | _ => exact .inl (group?_effect _ (by rintro _ _ ⟨⟩) h)
  cases e with
  | greet => exact clean_greet hs hfits (greeted_enterSession ..)
  | addWatcher pid =>
    have hmem : ∀ pid' fd', fd' ∈ (s.addWatcher fd pid).pidWatchers.values pid' →
        fd' ∈ s.pidWatchers.values pid' ∨ fd' = fd ∧ pid' = pid := by
      intro pid' fd' h
      simp only [addWatcher] at h
      split_ifs at h
      · exact .inl h
      rw [ListIndex.values_push] at h
      split_ifs at h with hpid
      · subst hpid
        exact (mem_append.mp h).imp_right fun hfd => ⟨mem_singleton.mp hfd, rfl⟩
      · exact .inl h
    refine hs.of_effect fd (fun _ => Iff.rfl) (fun fd' => ?_) ⟨hs.linked.process, ?_⟩
    · refine mentions_imp .inl .inl (fun _ _ => .inl) (fun _ => .inl) ?_ ?_
      · exact fun pid' h => (hmem pid' fd' h).imp_right fun hnew => ⟨hnew.1, hfits⟩
      · intro pid' h
        exact (has_add.mp h).symm.imp_right fun hnew => ⟨hnew.1, hfits⟩
    · intro pid' fd' hbusy h
      refine has_add.mpr ?_
      exact (hmem pid' fd' h).symm.imp_right (hs.linked.watcher pid' fd' hbusy)
  | dropWatcher pid =>
    have hmem : ∀ pid' fd', fd' ∈ ((Effect.dropWatcher pid).apply fd s).pidWatchers.values pid' →
        fd' ∈ s.pidWatchers.values pid' ∧ ¬ (fd' = fd ∧ pid' = pid) := by
      intro pid' fd' h
      simp only [Effect.apply] at h
      rw [ListIndex.values_update _ _ _ rfl] at h
      split_ifs at h with hpid
      · subst hpid
        obtain ⟨hold, hne⟩ := mem_filter.mp h
        exact ⟨hold, fun hboth => of_decide_eq_true hne hboth.1⟩
      · exact ⟨h, fun hboth => hpid hboth.2.symm⟩
    refine hs.of_effect fd (fun _ => Iff.rfl) (fun fd' => ?_) ⟨hs.linked.process, ?_⟩
    · refine mentions_imp .inl .inl (fun _ _ => .inl) (fun _ => .inl) ?_ ?_
      · exact fun pid' h => .inl (hmem pid' fd' h).1
      · exact fun pid' h => .inl (has_remove.mp h).2
    · intro pid' fd' hbusy h
      obtain ⟨hold, hother⟩ := hmem pid' fd' h
      exact has_remove.mpr ⟨hother, hs.linked.watcher pid' fd' hbusy hold⟩
  | _ => exact hs.of_tables fd rfl rfl rfl rfl hregistry htopic hwatch

theorem clean_init (heartbeatTimeoutMs smIncarnationId : UInt32) :
    Clean (init heartbeatTimeoutMs smIncarnationId) := by
  refine ⟨fun fd hmentions => ?_, by simp [init], by simp [init]⟩
  rcases mentions_iff.mp hmentions with ⟨n, k, entry, hentry, -⟩ | hmanager |
    ⟨watchId, group, hgroup⟩ | ⟨pid, hpid⟩ | ⟨pid, hpid⟩ | ⟨pid, hpid⟩
  · simp [init] at hentry
  · exact absurd hmanager (TopicManager.not_mentions_init fd)
  · simp [init] at hgroup
  · simp [init] at hpid
  · simp [init] at hpid
  · exact absurd hpid (not_has_empty fd pid)

/-- A new connection is a client that occurs nowhere yet. -/
theorem clean_accepted (hs : Clean s) (hdead : ¬ s.Alive fd) (h : Accepted fd s s') : Clean s' := by
  have hmentions : ∀ fd', s'.Mentions fd' ↔ s.Mentions fd' := fun fd' => by
    rw [mentions_iff, mentions_iff, h.registry_eq, h.topicManager_eq, h.watchNotifier_eq, h.pidToFds_eq,
      h.pidWatchers_eq, h.watcherToPids_eq]
  have hprofile : ∀ fd' p, fd' ≠ fd → (s'.profile? fd' = some p ↔ s.profile? fd' = some p) :=
    fun fd' p hne => by rw [h.profile_eq, if_neg hne.symm]
  refine ⟨fun fd' hfd => ?_, fun pid fd' p hfd hp => ?_, fun pid fd' hbusy hfd => ?_⟩
  · have halive := hs.alive fd' ((hmentions fd').mp hfd)
    obtain ⟨p, hp⟩ := App.alive_iff_profile.mp halive
    have hne : fd' ≠ fd := fun hsame => hdead (hsame ▸ halive)
    exact App.alive_iff_profile.mpr ⟨p, (hprofile fd' p hne).mpr hp⟩
  · rw [h.pidToFds_eq] at hfd
    have halive := hs.alive fd' (mentions_iff.mpr
      (.inr (.inr (.inr (.inl ⟨pid, hfd⟩)))))
    have hne : fd' ≠ fd := fun hsame => hdead (hsame ▸ halive)
    exact hs.linked.process pid fd' p hfd ((hprofile fd' p hne).mp hp)
  · rw [h.watcherToPids_eq]
    exact hs.linked.watcher pid fd' hbusy (h.pidWatchers_eq ▸ hfd)

theorem clean_step (event : Event × List SendOutcome) (hs : Clean s) : Clean (s.step event) :=
  step_invariant (fun _ _ h => h.clean) (fun _ _ _ hdead h hs => clean_accepted hs hdead h)
    (fun _ _ e => clean_effect e) event hs

/-! ### Every connection is closed once -/

/-- Numbers given out in order: each is held by one owner, or was handed back once. -/
structure Ledger {κ : Type} (held : κ → Option Nat) (closed : List Nat) (next : Nat) : Prop where
  nodup : closed.Nodup
  lt_iff : ∀ n, n < next ↔ n ∈ closed ∨ ∃ k, held k = some n
  not_closed : ∀ k n, held k = some n → n ∉ closed
  distinct : ∀ k k' n, held k = some n → held k' = some n → k = k'

section
variable {κ : Type} [DecidableEq κ] {held : κ → Option Nat} {closed : List Nat} {next n : Nat} {k : κ}

theorem Ledger.close (h : Ledger held closed next) (hk : held k = some n) :
    Ledger (Function.update held k none) (n :: closed) next := by
  have hother : ∀ k' n', Function.update held k none k' = some n' ↔ k' ≠ k ∧ held k' = some n' := by
    intro k' n'
    rw [Function.update_apply]
    split_ifs with hsame
    · simp [hsame]
    · simp [hsame]
  refine ⟨nodup_cons.mpr ⟨h.not_closed k n hk, h.nodup⟩, fun n' => (h.lt_iff n').trans ⟨?_, ?_⟩,
    fun k' n' hk' => ?_, fun k₁ k₂ n' h₁ h₂ => ?_⟩
  · rintro (hold | ⟨k', hk'⟩)
    · exact .inl (mem_cons_of_mem _ hold)
    by_cases hsame : k' = k
    · subst hsame
      exact .inl (mem_cons.mpr (.inl (Option.some.inj (hk'.symm.trans hk))))
    · exact .inr ⟨k', (hother k' n').mpr ⟨hsame, hk'⟩⟩
  · rintro (hmem | ⟨k', hk'⟩)
    · exact (mem_cons.mp hmem).elim (fun hsame => .inr ⟨k, hsame ▸ hk⟩) .inl
    · exact .inr ⟨k', ((hother k' n').mp hk').2⟩
  · obtain ⟨hne, hk'⟩ := (hother k' n').mp hk'
    refine not_mem_cons_of_ne_of_not_mem (fun hsame => hne ?_) (h.not_closed k' n' hk')
    exact h.distinct k' k n (hsame ▸ hk') hk
  · exact h.distinct k₁ k₂ n' ((hother k₁ n').mp h₁).2 ((hother k₂ n').mp h₂).2

theorem Ledger.open (h : Ledger held closed next) (hk : held k = none) :
    Ledger (Function.update held k (some next)) closed (next + 1) := by
  have hold : ∀ {k' n'}, Function.update held k (some next) k' = some n' →
      (k' = k ∧ n' = next) ∨ held k' = some n' ∧ n' < next := by
    intro k' n' hk'
    rw [Function.update_apply] at hk'
    split_ifs at hk' with hsame
    · exact .inl ⟨hsame, (Option.some.inj hk').symm⟩
    · exact .inr ⟨hk', (h.lt_iff n').mpr (.inr ⟨k', hk'⟩)⟩
  refine ⟨h.nodup, fun n' => ⟨fun hlt => ?_, ?_⟩, fun k' n' hk' => ?_, fun k₁ k₂ n' h₁ h₂ => ?_⟩
  · rcases Nat.lt_succ_iff_lt_or_eq.mp hlt with hlt | rfl
    · refine ((h.lt_iff n').mp hlt).imp_right fun ⟨k', hk'⟩ => ⟨k', ?_⟩
      rwa [Function.update_of_ne]
      rintro rfl
      cases hk.symm.trans hk'
    · exact .inr ⟨k, Function.update_self ..⟩
  · rintro (hmem | ⟨k', hk'⟩)
    · exact Nat.lt_succ_of_lt ((h.lt_iff n').mpr (.inl hmem))
    · rcases hold hk' with ⟨-, rfl⟩ | ⟨-, hlt⟩
      · exact Nat.lt_succ_self _
      · exact Nat.lt_succ_of_lt hlt
  · rcases hold hk' with ⟨-, rfl⟩ | ⟨hk', -⟩
    · exact fun hmem => Nat.lt_irrefl _ ((h.lt_iff n').mpr (.inl hmem))
    · exact h.not_closed k' n' hk'
  · rcases hold h₁ with ⟨hk₁, hn⟩ | ⟨h₁, hlt⟩ <;> rcases hold h₂ with ⟨hk₂, hn'⟩ | ⟨h₂, hlt'⟩
    · exact hk₁.trans hk₂.symm
    · omega
    · omega
    · exact h.distinct k₁ k₂ n' h₁ h₂

end

/-- The connections that were ever accepted: each is a client or was closed, never both. -/
def Counted (s : App) : Prop := Ledger s.serial? (closedSerials s.trace) s.nextSerial

/-- The ledger depends on who the clients are, the closed connections and the next number. -/
theorem Counted.of_same (h : Counted s) (hserial : ∀ fd, s'.serial? fd = s.serial? fd)
    (hclosed : closedSerials s'.trace = closedSerials s.trace)
    (hnext : s'.nextSerial = s.nextSerial) : Counted s' := by
  rwa [Counted, funext hserial, hclosed, hnext]

theorem closedSerials_append (new trace : List TraceEntry) :
    closedSerials (new ++ trace) = closedSerials new ++ closedSerials trace := filterMap_append

theorem closedSerials_detach (s : App) (fd : Int) (conn : ClientConnection) (notify : Bool) :
    closedSerials (s.detach fd conn notify).2.trace = conn.serial :: closedSerials s.trace := by
  have hdropped : ∀ removed : List ServiceIdentity, closedSerials (removed.map fun identity =>
      TraceEntry.serviceDropped identity.name identity.instanceId) = [] := by
    intro removed
    rw [closedSerials, filterMap_map]
    exact filterMap_eq_nil_iff.mpr fun _ _ => rfl
  simp only [detach]
  split_ifs
  · rfl
  · rw [closedSerials_append, hdropped]
    rfl

theorem Touches.closedSerials_eq (h : Touches s s') :
    closedSerials s'.trace = closedSerials s.trace := by
  obtain ⟨new, htrace, hnew⟩ := h.trace_eq
  rw [htrace, closedSerials_append]
  refine append_left_eq_self.mpr (filterMap_eq_nil_iff.mpr fun entry hentry => ?_)
  obtain ⟨fd, content, rfl⟩ := hnew entry hentry
  rfl

/-- A connection that leaves the clients goes to the closed ones. -/
theorem counted_detach (hs : Counted s) (hconn : s.clients[fd]? = some conn) (notify : Bool) :
    Counted (s.detach fd conn notify).2 := by
  have hserial : (s.detach fd conn notify).2.serial? = Function.update s.serial? fd none := by
    funext fd'
    rw [serial?, profile?_detach, Function.update_apply]
    simp only [eq_comm (a := fd)]
    split_ifs
    · rfl
    · rfl
  rw [Counted, hserial, closedSerials_detach]
  exact Ledger.close hs (by rw [serial?, App.profile?, hconn]; rfl)

theorem counted_forgotten (hs : Counted s) (fd : Int) (conn : ClientConnection) :
    Counted (s.forgotten fd conn) := by
  obtain ⟨hclients, -, -, hserial, htrace, -, -⟩ := forget_frame s fd conn
  refine hs.of_same (fun fd' => ?_) (congrArg closedSerials htrace) hserial
  rw [serial?, serial?, App.profile?, App.profile?, forgotten, hclients]

theorem Nested.counted (h : Nested ok s s') (hs : Counted s) : Counted s' := by
  induction h with
  | refl s => exact hs
  | trans _ _ ih ih' => exact ih' (ih hs)
  | touch htouch =>
    exact hs.of_same (fun fd => by rw [serial?, htouch.profile_eq]; rfl) htouch.closedSerials_eq
      htouch.nextSerial_eq
  | hand _ _ _ _ _ => exact hs.of_same (fun _ => rfl) rfl rfl
  | unwatch _ _ _ => exact hs.of_same (fun _ => rfl) rfl rfl
  | close fd conn notify hconn _ _ _ _ ih ih' =>
    exact ih' (counted_forgotten (ih (counted_detach hs hconn notify)) fd conn)

theorem closedSerials_effect (e : Effect) :
    closedSerials (e.apply fd s).trace = closedSerials s.trace := by
  cases e with
  | subscribe topic selector =>
    simp only [Effect.apply]
    split_ifs
    · rfl
    · rfl
  | greet => exact congrArg closedSerials (greeted_enterSession ..).trace_eq
  | _ => rfl

theorem counted_effect (e : Effect) (hfits : e.Fits fd s) (hs : Counted s) : Counted (e.apply fd s) := by
  cases e with
  | greet =>
    exact hs.of_same ((greeted_enterSession ..).serial_eq hfits) (closedSerials_effect _)
      (greeted_enterSession ..).nextSerial_eq
  | _ => exact hs.of_same (fun _ => rfl) (closedSerials_effect _) rfl

/-- A new connection has a number that no connection has had. -/
theorem counted_accepted (hs : Counted s) (hdead : ¬ s.Alive fd) (h : Accepted fd s s') :
    Counted s' := by
  have hclosed : closedSerials s'.trace = closedSerials s.trace := by rw [h.trace_eq]; rfl
  have hserial : s'.serial? = Function.update s.serial? fd (some s.nextSerial) := by
    funext fd'
    rw [serial?, h.profile_eq, Function.update_apply]
    simp only [eq_comm (a := fd)]
    split_ifs
    · rfl
    · rfl
  rw [Counted, hserial, hclosed, h.nextSerial_eq]
  exact Ledger.open hs (by rw [serial?, App.profile?, not_alive_iff.mp hdead]; rfl)

theorem counted_init (heartbeatTimeoutMs smIncarnationId : UInt32) :
    Counted (init heartbeatTimeoutMs smIncarnationId) := by
  have hnobody : (init heartbeatTimeoutMs smIncarnationId).serial? = fun _ => none := by
    funext fd
    simp [init, serial?, App.profile?]
  rw [Counted, hnobody]
  exact ⟨nodup_nil, by simp [init, closedSerials], by simp, by simp⟩

theorem counted_step (event : Event × List SendOutcome) (hs : Counted s) : Counted (s.step event) :=
  step_invariant (fun _ _ h => h.counted) (fun _ _ _ hdead h hs => counted_accepted hs hdead h)
    (fun _ _ e => counted_effect e) event hs

/-- In every run, whatever the clients send and however the transport takes what is sent to them: the
    descriptors in the tables are those of clients, and each connection that was accepted is either a
    client and was never closed, or was closed once. -/
theorem mentions_alive_and_closed_once (heartbeatTimeoutMs smIncarnationId : UInt32)
    (events : List (Event × List SendOutcome)) :
    let s := (App.init heartbeatTimeoutMs smIncarnationId).run events
    (∀ fd, s.Mentions fd → s.Alive fd) ∧
      ∀ serial < s.nextSerial,
        let isClient := ∃ (fd : Int) (conn : ClientConnection), s.clients[fd]? = some conn ∧
          conn.serial = serial
        (isClient ∧ (closedSerials s.trace).count serial = 0) ∨
          (¬ isClient ∧ (closedSerials s.trace).count serial = 1) := by
  intro s
  have hreachable : s.Reachable := ⟨_, _, events, rfl⟩
  have hclean : Clean s := hreachable.invariant clean_init clean_step
  have hcounted : Counted s := hreachable.invariant counted_init counted_step
  have hclient : ∀ serial, (∃ fd, s.serial? fd = some serial) ↔
      ∃ (fd : Int) (conn : ClientConnection), s.clients[fd]? = some conn ∧ conn.serial = serial := by
    intro serial
    refine exists_congr fun fd => ?_
    rw [serial?, App.profile?, Option.map_map, Option.map_eq_some_iff]
    rfl
  refine ⟨hclean.alive, fun serial hlt => ?_⟩
  simp only [← hclient]
  by_cases hclosed : serial ∈ closedSerials s.trace
  · refine .inr ⟨?_, by rw [hcounted.nodup.count, if_pos hclosed]⟩
    rintro ⟨fd, hfd⟩
    exact hcounted.not_closed fd serial hfd hclosed
  · exact .inl ⟨((hcounted.lt_iff serial).mp hlt).resolve_left hclosed, count_eq_zero_of_not_mem hclosed⟩

end OmniBinder.ServiceManager
