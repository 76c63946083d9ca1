/-
Module: OmniBinder.Proofs.SmWatches
Purpose: What watchers were told last about an instance against what the registry has.
Trusted boundary: none
Main exports: Told, stale_online_after_silent_takeover
-/
import OmniBinder.Proofs.SmCleanup

namespace OmniBinder.ServiceManager

open List ServiceRegistry App Effect

/-! ### The last word -/

/-- The last word of every watcher about an instance is right, or the instance was dropped silently. -/
def Told (n i : Bytes) (s : App) : Prop :=
  ∀ key group online, s.watchNotifier.group? key = some group → group.matches ⟨n, [], i⟩ = true →
    s.Alive key.fd → lastSaid key n i s.trace = some online →
    online = s.registered n i ∨ (s.registered n i = false ∧ droppedSilently n i s.trace = true)

/-- A message that says of an instance what the registry has, if it says anything about it. -/
def Truthful (n i : Bytes) (registry : ServiceRegistry) (out : Outgoing) : Prop :=
  ∀ watchId identity online, out = .serviceWatchNotify watchId identity online →
    identity.name = n → identity.instanceId = i → online = (registry.findEntry n i).isSome

variable {identity : ServiceIdentity} {s s' : App} {fd : Int} {conn : ClientConnection}
  {entry : ServiceEntry} {watchId : UInt64} {msg : ReceivedMessage}

section
variable {n i : Bytes}

theorem truthful_of_quiet (registry : ServiceRegistry) (out : Outgoing) (h : Quiet registry out) :
    Truthful n i registry out := by
  rintro watchId identity online hout rfl rfl
  obtain ⟨rfl, hnone⟩ := h watchId identity online hout
  rw [hnone]
  rfl

theorem droppedSilently_append {new trace : List TraceEntry}
    (hnew : .serviceRegistered n i ∉ new) (h : droppedSilently n i trace = true) :
    droppedSilently n i (new ++ trace) = true := by
  induction new with
  | nil => exact h
  | cons entry new ih =>
    have ih := ih fun hmem => hnew (mem_cons_of_mem _ hmem)
    cases entry with
    | serviceDropped name instanceId => simp [droppedSilently, ih]
    | serviceRegistered name instanceId =>
      have hother : ¬ (name = n ∧ instanceId = i) := by
        rintro ⟨rfl, rfl⟩
        exact hnew (mem_cons_self ..)
      simp [droppedSilently, ih, hother]
    | _ => exact ih

theorem droppedSilently_of_mem {dropped : List ServiceIdentity} (hmem : identity ∈ dropped)
    (trace : List TraceEntry) :
    droppedSilently identity.name identity.instanceId
      (dropped.map (fun identity => .serviceDropped identity.name identity.instanceId) ++ trace) =
        true := by
  induction dropped with
  | nil => cases hmem
  | cons first dropped ih =>
    rw [map_cons, cons_append, droppedSilently]
    rcases mem_cons.mp hmem with rfl | hlater
    · simp
    · rw [ih hlater, Bool.or_true]

/-- Nothing new about the instance: the word, the registration and a silent loss are as they were. -/
theorem Told.of_same (h : Told n i s)
    (hgroup : ∀ key group, s'.watchNotifier.group? key = some group → s.watchNotifier.group? key = some group)
    (halive : ∀ key group, s'.watchNotifier.group? key = some group → s'.Alive key.fd → s.Alive key.fd)
    (hregistered : s'.registry.findEntry n i = s.registry.findEntry n i)
    (hlast : ∀ key, lastSaid key n i s'.trace = lastSaid key n i s.trace)
    (hdropped : droppedSilently n i s.trace = true → droppedSilently n i s'.trace = true) :
    Told n i s' := by
  intro key group online hfound hmatch halive' hsaid
  rw [hlast] at hsaid
  have hsame : s'.registered n i = s.registered n i := by rw [registered, hregistered]; rfl
  rw [hsame]
  exact (h key group online (hgroup key group hfound) hmatch (halive key group hfound halive')
    hsaid).imp_right (And.imp_right hdropped)

theorem told_touches (htouch : Touches s s') (h : Told n i s) : Told n i s' := by
  refine h.of_same (fun key group => ?_) (fun key _ _ => (alive_of_touches htouch).mp) ?_
    (fun key => htouch.lastSaid_eq) fun hdropped => ?_
  · rw [htouch.watchNotifier_eq]
    exact id
  · rw [htouch.registry_eq]
  obtain ⟨new, htrace, hnew⟩ := htouch.trace_eq
  rw [htrace]
  refine droppedSilently_append (fun hmem => ?_) hdropped
  obtain ⟨fd, content, hentry⟩ := hnew _ hmem
  cases hentry

theorem told_hand {sequence : UInt32} {out : Outgoing} (hok : Truthful n i s.registry out)
    (h : Told n i s) : Told n i (s.record (.handed fd sequence out)) := by
  intro key group online hfound hmatch halive hsaid
  by_cases hmute : (TraceEntry.handed fd sequence out).Mute key n i
  · have hsaid := (lastSaid_cons_mute hmute s.trace).symm.trans hsaid
    exact h key group online hfound hmatch halive hsaid
  -- the message is the last word then
  cases out with
  | serviceWatchNotify watchId identity said =>
    have hsame := not_not.mp hmute
    have hlast : lastSaid key n i (s.record (.handed fd sequence
      (.serviceWatchNotify watchId identity said))).trace = some said := if_pos hsame
    rw [hlast, Option.some.injEq] at hsaid
    exact .inl (hsaid ▸ hok watchId identity said rfl hsame.2.2.1 hsame.2.2.2)
  | _ => exact absurd trivial hmute

theorem told_forgotten (h : Told n i s) : Told n i (s.forgotten fd conn) := by
  obtain ⟨-, hregistry, -, -, htrace, hwatch, -⟩ := forget_frame s fd conn
  have htrace : (s.forgotten fd conn).trace = s.trace := htrace
  refine h.of_same (fun key group hfound => ?_) (fun key _ _ => (alive_forgotten key.fd).mp) ?_
    (fun key => by rw [htrace]) fun hdropped => by rw [htrace]; exact hdropped
  · rw [forgotten, hwatch, ServiceWatchNotifier.group?_removeSubscriber] at hfound
    split_ifs at hfound
    exact hfound
  · rw [forgotten, hregistry]

/-- A close that takes the instance away leaves every watcher told, or drops it silently. -/
theorem told_close_owned {s₁ : App} {notify : Bool} (hentry : s.registry.findEntry n i = some entry)
    (howner : entry.controlFd = fd) (hnested : Told n i (s.detach fd conn notify).2 → Told n i s₁)
    (hshrinks : Shrinks (s.detach fd conn notify).2 s₁)
    (htold : notify = true → ∀ identity ∈ (s.detach fd conn notify).1, ∀ key group, s₁.watchNotifier.group? key = some group → group.matches identity = true → s₁.Alive key.fd → lastSaid key identity.name identity.instanceId s₁.trace = some false)
    : Told n i s₁ := by
  obtain ⟨hname, hinstance⟩ := stored_under hentry
  have hremoved : entry.info.identity ∈ (s.detach fd conn notify).1 :=
    (mem_removeByFd _ _ _).mpr
      ⟨entry, by rw [← hentry, ← hname, ← hinstance]; rfl, howner, rfl⟩
  have hgone := findEntry_detach_none hremoved
  subst hname hinstance
  cases notify with
  | true =>
    intro key group online hfound hmatch halive hsaid
    have hlast := htold rfl _ hremoved key group hfound hmatch halive
    have hnone : s₁.registry.findEntry entry.info.name entry.info.instanceId = none :=
      hshrinks.findEntry_none hgone
    rw [registered, hnone]
    exact .inl (Option.some.inj (hsaid.symm.trans hlast))
  | false =>
    refine hnested fun key group online _ _ _ _ => .inr ⟨?_, ?_⟩
    · exact congrArg Option.isSome hgone
    · exact droppedSilently_of_mem hremoved _

/-- A close that does not concern the instance. -/
theorem told_detach_other {notify : Bool}
    (hother : ∀ entry, s.registry.findEntry n i = some entry → entry.controlFd ≠ fd)
    (h : Told n i s) : Told n i (s.detach fd conn notify).2 := by
  refine h.of_same (fun _ _ => id) (fun key _ _ halive => ?_) ?_
    (fun key => lastSaid_detach s fd conn notify) fun hdropped => ?_
  · exact ((alive_detach s fd conn notify key.fd).mp halive).2
  · refine (findEntry_removeByFd s.registry fd n i).trans ?_
    cases hentry : s.registry.findEntry n i with
    | none => rfl
    | some entry => rw [Option.filter_some, if_pos (by simpa using hother entry hentry)]
  · simp only [detach]
    refine droppedSilently_append (fun hmem => ?_) hdropped
    split_ifs at hmem
    · cases hmem
    · obtain ⟨identity, -, hentry⟩ := List.mem_map.mp hmem
      cases hentry

/-- Whatever is nested keeps the last words right, if the messages are truthful. -/
theorem Nested.told (h : Nested (Truthful n i) s s') (hs : Told n i s) : Told n i s' := by
  induction h with
  | refl s => exact hs
  | trans _ _ ih ih' => exact ih' (ih hs)
  | touch htouch => exact told_touches htouch hs
  | hand fd sequence out _ hok => exact told_hand hok hs
  | unwatch fd pid _ =>
    exact hs.of_same (fun _ _ => id) (fun _ _ _ => id) rfl (fun _ => rfl) id
  | @close s s₁ s₂ fd conn notify _ hnotify htold _ _ ih ih' =>
    by_cases howned : ∃ entry, s.registry.findEntry n i = some entry ∧ entry.controlFd = fd
    · obtain ⟨entry, hentry, howner⟩ := howned
      exact ih' (told_forgotten (told_close_owned hentry howner ih hnotify.shrinks htold))
    · refine ih' (told_forgotten (ih (told_detach_other (fun entry hentry howner => ?_) hs)))
      exact howned ⟨entry, hentry, howner⟩

theorem Nested.told_of_quiet (h : Nested Quiet s s') (hs : Told n i s) : Told n i s' :=
  (h.mono truthful_of_quiet).told hs

/-! ### Changes -/

theorem Effect.records_mute {e : Effect} {entry : TraceEntry} (h : e.Records fd entry)
    (hother : ∀ watchId filters, e ≠ .watch watchId filters) (key : WatchKey) : entry.Mute key n i := by
  cases e with
  | watch watchId filters => exact absurd rfl (hother watchId filters)
  | register info =>
    cases h
    trivial
  | publish topic info idlHash =>
    cases h
    trivial
  | subscribe topic selector =>
    cases h
    trivial
  | _ => cases h

/-- A change of the instance or of the watches. -/
def Effect.Concerns (n i : Bytes) : Effect → Prop
  | watch _ _ => True
  | register info => info.name = n ∧ info.instanceId = i
  | unregister identity => identity.name = n ∧ identity.instanceId = i
  | _ => False

theorem told_effect (e : Effect) (hfits : e.Fits fd s) (hother : ¬ e.Concerns n i) (hs : Told n i s) :
    Told n i (e.apply fd s) := by
  have hwatch : ∀ watchId filters, e ≠ .watch watchId filters := by
    rintro watchId filters rfl
    exact hother trivial
  obtain ⟨new, htrace, hnew⟩ := trace_effect s fd e
  refine hs.of_same (fun key group => group?_effect e hwatch)
    (fun key _ _ => (alive_effect e hfits key.fd).mp) ?_ (fun key => ?_) fun hdropped => ?_
  · cases e with
    | register info =>
      rcases s.registry.addService_cases info fd with ⟨hrefused, -⟩ | ⟨-, handle, hfind⟩
      · exact absurd hrefused hfits.2.1
      · exact (hfind n i).trans (if_neg hother)
    | unregister identity =>
      exact (s.registry.findEntry_removeServiceByIdentity identity n i).trans (if_neg hother)
    | greet => rw [Effect.apply, (greeted_enterSession ..).registry_eq]
    | _ => rfl
  · rw [htrace]
    exact lastSaid_append_mute (fun entry hentry => records_mute (hnew entry hentry) hwatch key) _
  · rw [htrace]
    refine droppedSilently_append (fun hmem => ?_) hdropped
    have hrecords := hnew _ hmem
    cases e with
    | register info =>
      obtain ⟨hname, hinstance⟩ := TraceEntry.serviceRegistered.inj hrecords
      exact hother ⟨hname.symm, hinstance.symm⟩
    | _ => cases hrecords

/-- A new watch has been told nothing yet. -/
theorem told_watch {filters : List ServiceWatchFilter}
    (hfits : (watch watchId filters).Fits fd s) (hs : Told n i s) :
    Told n i ((watch watchId filters).apply fd s) := by
  intro key group online hfound hmatch halive hsaid
  rcases s.watchNotifier.subscribe_cases fd watchId filters with ⟨hrefused, -⟩ | ⟨-, -, hgroups⟩
  · exact absurd hfits.2 (hrefused ▸ Bool.false_ne_true)
  have hfound := (hgroups key).symm.trans hfound
  by_cases hkey : fd = key.fd ∧ watchId = key.watchId
  · have hnone : lastSaid key n i ((watch watchId filters).apply fd s).trace = none :=
      if_pos hkey
    rw [hnone] at hsaid
    cases hsaid
  · rw [if_neg fun hsame : (⟨fd, watchId⟩ : WatchKey) = key => hkey (hsame ▸ ⟨rfl, rfl⟩)] at hfound
    have hsaid := (if_neg hkey).symm.trans hsaid
    exact hs key group online hfound hmatch halive hsaid

/-! ### Registering -/

/-- While the registry has the instance, nobody may be told that it is gone. -/
def OnlineOrQuiet (registry : ServiceRegistry) (out : Outgoing) : Prop :=
  Quiet registry out ∨ ∃ watchId identity, out = .serviceWatchNotify watchId identity true

theorem says_online {r : ServiceRegistry} (hentry : r.findEntry n i = some entry) :
    Says OnlineOrQuiet n i true r := by
  rintro registry hwithin watchId identity said (hquiet | ⟨watchId', identity', hout⟩) rfl rfl
  · obtain ⟨-, hnone⟩ := hquiet watchId identity said rfl
    rw [hwithin _ _ entry hentry] at hnone
    cases hnone
  · cases hout
    rfl

/-- After the announcement of an instance that is still there everybody has heard of it. -/
theorem told_notify_online
    (hentry : (s.notifyServiceWatch closeFailed identity true).registry.findEntry identity.name identity.instanceId = some entry)
    : Told identity.name identity.instanceId (s.notifyServiceWatch closeFailed identity true) := by
  intro key group online hfound hmatch halive hsaid
  have hclose : Closes OnlineOrQuiet s.clients.size closeFailed :=
    closes_closeFailed (fun _ _ h => .inl h.1) _
  have hlast := told_notifyServiceWatch hclose le_rfl
    (fun _ _ watchId => .inr ⟨watchId, identity, rfl⟩) (says_online hentry) hfound hmatch halive
  rw [registered, hentry]
  exact .inl (Option.some.inj (hsaid.symm.trans hlast))

theorem told_notify_offline (hgone : s.registry.findEntry identity.name identity.instanceId = none) :
    Told identity.name identity.instanceId (s.notifyServiceRemoved closeFailed identity) := by
  intro key group online hfound hmatch halive hsaid
  have hlast := told_notifyServiceWatch (closes_closeFailed (fun _ _ => id) s.clients.size) le_rfl
    (fun _ hs' watchId => unprompted_offline watchId (hs'.findEntry_none hgone)) (says_unprompted _ _ _)
    hfound hmatch halive
  have hnone := (sends_notifyServiceRemoved s quiet_of_unprompted hgone).nested.shrinks.findEntry_none hgone
  rw [registered, hnone]
  exact .inl (Option.some.inj (hsaid.symm.trans hlast))

theorem told_releaseDisplaced (hs : Told n i s) (name : Bytes) (displacedFd newFd : Int) :
    Told n i (s.releaseDisplaced name displacedFd newFd) := by
  have hsteps : Steps Quiet (fun e => ∃ name owner, e = .dropPublishers name owner) newFd s
      (s.releaseDisplaced name displacedFd newFd) :=
    steps_releaseDisplaced s newFd quiet_of_unprompted (fun name owner => ⟨name, owner, rfl⟩) name displacedFd newFd
  refine hsteps.invariant (fun _ _ h => h.told_of_quiet) (fun s e hkind hfits => ?_) hs
  obtain ⟨name, owner, rfl⟩ := hkind
  exact told_effect _ hfits not_false

/-- A registration of another instance. -/
theorem told_register_other {info : ServiceInfo} (hfits : (register info).Fits fd s)
    (hother : ¬ (info.name = n ∧ info.instanceId = i)) (hs : Told n i s) (sequence : UInt32) :
    Told n i (s.announced fd sequence info) := by
  have hreply := (sends_reply truthful_of_quiet _ fd sequence
    (.registerReply (s.registry.addService info fd).1) rfl).nested.told (told_effect _ hfits hother hs)
  refine (sends_announceRegistration _ fd (fun _ _ h => truthful_of_quiet _ _ h.1) _ info ?_).nested.told hreply
  rintro identity hidentity registry watchId online watchId' identity' online' hout rfl rfl
  cases hout
  rcases hidentity with rfl | ⟨entry, hentry, rfl⟩
  · exact absurd ⟨rfl, rfl⟩ hother
  · obtain ⟨hname, hinstance⟩ := stored_under hentry
    exact absurd ⟨hname.symm, hinstance.symm⟩ hother

/-- A registration of the instance itself by a connection that stays. -/
theorem told_register_own {info : ServiceInfo} (hfits : (register info).Fits fd s)
    (hs : Told info.name info.instanceId s) {sequence : UInt32}
    (halive : (s.announced fd sequence info).Alive fd) :
    Told info.name info.instanceId (s.announced fd sequence info) := by
  set s' := s.announced fd sequence info
  set s₁ := (register info).apply fd s
  set s₂ := s₁.sendMessage closeFailed fd sequence
    (.registerReply (s.registry.addService info fd).1)
  obtain ⟨entry, hentry, howner⟩ : ∃ entry, s₁.registry.findEntry info.name info.instanceId =
      some entry ∧ entry.controlFd = fd := by
    rcases s.registry.addService_cases info fd with ⟨hrefused, -⟩ | ⟨-, handle, hfind⟩
    · exact absurd hrefused hfits.2.1
    · exact ⟨⟨info, handle, fd⟩, (hfind _ _).trans (if_pos ⟨rfl, rfl⟩), rfl⟩
  have hreply : Nested Quiet s₁ s₂ := (sends_reply (fun _ _ => id) s₁ fd sequence _ rfl).nested
  -- the instance is there until the end because its owner is
  have hthere : s'.registry.findEntry info.name info.instanceId = some entry :=
    (nested_announced s fd sequence info).shrinks.registry _ _ entry |>.mpr
      ⟨hentry, fun _ => by rw [howner]; exact halive⟩
  have hmade : s' = s₂.announceRegistration (s.registry.findServiceByIdentity info.identity) info fd := rfl
  cases hold : s.registry.findServiceByIdentity info.identity with
  | none =>
    have hmade : s' = s₂.notifyServiceWatch closeFailed info.identity true := by
      rw [hmade, hold]
      rfl
    rw [hmade] at hthere ⊢
    exact told_notify_online hthere
  | some old =>
    by_cases hchanged : old.controlFd ≠ fd ∨ old.info.port ≠ info.port ∨ old.info.hostId ≠ info.hostId
    · have hmade : s' = (s₂.notifyServiceWatch closeFailed old.info.identity
          false).notifyServiceWatch closeFailed info.identity true := by
        rw [hmade, hold]
        exact if_pos hchanged
      rw [hmade] at hthere ⊢
      exact told_notify_online hthere
    · -- nobody is told, and nobody needs to be
      have hmade : s' = s₂ := by
        rw [hmade, hold]
        exact if_neg hchanged
      rw [hmade]
      refine hreply.told_of_quiet fun key group online hfound hmatch halive hsaid => ?_
      have hbefore := hs key group online hfound hmatch halive hsaid
      have hwas : s.registered info.name info.instanceId = true := by
        rw [registered]
        exact congrArg Option.isSome hold
      rw [hwas] at hbefore
      refine .inl ((hbefore.resolve_right fun h => Bool.noConfusion h.1).trans ?_)
      rw [registered, hentry]
      rfl

theorem told_handleRegister (hs : Told n i s) (halive : s.Alive fd)
    (hstays : (s.handleRegister fd conn msg).Alive fd) : Told n i (s.handleRegister fd conn msg) := by
  rcases handleRegister_cases s fd msg conn with hrefused | ⟨info, hhandle, hinfo, hmade⟩
  · rw [hrefused]
    exact (sends_reply (fun _ _ => id) s fd _ _ rfl).nested.told_of_quiet hs
  have hfits : (register info).Fits fd s := ⟨halive, hhandle, received_of_run hinfo⟩
  rw [hmade] at hstays ⊢
  refine told_releaseDisplaced ?_ _ _ _
  by_cases hown : info.name = n ∧ info.instanceId = i
  · obtain ⟨rfl, rfl⟩ := hown
    exact told_register_own hfits hs (alive_releaseDisplaced hstays)
  · exact told_register_other hfits hown hs msg.sequence

/-! ### Unregistering -/

theorem told_handleUnregister (hs : Told n i s) : Told n i (s.handleUnregister fd msg) := by
  rcases handleUnregister_cases s fd msg with hrefused | ⟨identity, hfits, hmade⟩
  · rw [hrefused]
    exact (sends_boolReply (fun _ _ => id) s fd _ _ _).nested.told_of_quiet hs
  have hgone := findEntry_unregister s fd identity
  have hremoved : Told n i
      (((unregister identity).apply fd s).notifyServiceRemoved closeFailed identity) := by
    by_cases hown : identity.name = n ∧ identity.instanceId = i
    · obtain ⟨rfl, rfl⟩ := hown
      exact told_notify_offline hgone
    · exact (sends_notifyServiceRemoved _ quiet_of_unprompted hgone).nested.told_of_quiet
        (told_effect _ hfits hown hs)
  rw [hmade]
  refine (sends_boolReply (fun _ _ => id) _ fd _ _ _).nested.told_of_quiet ?_
  split_ifs
  · exact told_effect (.dropPublishers ..) trivial not_false hremoved
  · exact hremoved

/-! ### Subscribing -/

/-- One notification to a watcher: truthful, and the registry stays while the watcher does. -/
theorem tell_spec {online : Bool}
    (hok : s.Alive fd → Truthful n i s.registry (.serviceWatchNotify watchId identity online)) :
    let s' := s.sendServiceWatchNotify closeFailed fd watchId identity online
    Nested (Truthful n i) s s' ∧ (s'.Alive fd → s'.registry = s.registry) := by
  dsimp only
  have hclose : Closes (Truthful n i) s.clients.size closeFailed :=
    closes_closeFailed (fun _ _ h => truthful_of_quiet _ _ h.1) _
  by_cases halive : s.Alive fd
  · refine ⟨nested_sendServiceWatchNotify hclose le_rfl fd watchId identity online (hok halive),
      fun hafter => ?_⟩
    unfold sendServiceWatchNotify at hafter ⊢
    rw [if_pos (contains_iff.mpr halive)] at hafter ⊢
    obtain ⟨sequence, s', htouch, hsent⟩ := sendProactive_alive hclose le_rfl
      (fun sequence => by simp [Outgoing.message, Outgoing.payload]) hafter
    exact hsent.registry_eq.trans htouch.registry_eq
  · have hsame : s.sendServiceWatchNotify closeFailed fd watchId identity online = s :=
      if_neg fun hthere => halive (contains_iff.mp hthere)
    rw [hsame]
    exact ⟨.refl s, fun _ => rfl⟩

/-- The loop over the instances a filter matches. -/
theorem tell_all_spec {registry : ServiceRegistry} (identities : List ServiceIdentity)
    (hthere : ∀ identity ∈ identities, (registry.findEntry identity.name identity.instanceId).isSome = true)
    (hsame : s.Alive fd → s.registry = registry) :
    let s' := identities.foldl
      (fun s identity => s.sendServiceWatchNotify closeFailed fd watchId identity true) s
    Nested (Truthful n i) s s' ∧ (s'.Alive fd → s'.registry = registry) := by
  induction identities generalizing s with
  | nil => exact ⟨.refl s, hsame⟩
  | cons identity identities ih =>
    have hok : s.Alive fd → Truthful n i s.registry (.serviceWatchNotify watchId identity true) := by
      rintro halive watchId' identity' online hout rfl rfl
      cases hout
      rw [hsame halive]
      exact (hthere identity (mem_cons_self ..)).symm
    obtain ⟨hfirst, hkept⟩ := tell_spec hok
    obtain ⟨hrest, hkept'⟩ := ih (fun other hother => hthere other (mem_cons_of_mem _ hother))
      fun halive => (hkept halive).trans (hsame (hfirst.shrinks.alive halive))
    exact ⟨hfirst.trans hrest, hkept'⟩

theorem nested_initial_truthful (fd : Int) (watchId : UInt64) (filter : ServiceWatchFilter) :
    Nested (Truthful n i) s (s.sendInitialServiceWatch fd watchId filter) := by
  have hlisted : ∀ identity : ServiceIdentity,
      identity ∈ ((s.registry.listServiceInstances filter.serviceName).map (·.identity)).filter
        (fun identity => filter.matches identity) ↔
      (∃ key entry, s.registry.findEntry filter.serviceName key = some entry ∧
        entry.info.identity = identity) ∧ filter.matches identity = true := by
    intro identity
    rw [List.mem_filter, List.mem_map]
    refine and_congr_left' ⟨?_, ?_⟩
    · rintro ⟨info, hinfo, rfl⟩
      obtain ⟨key, entry, hentry, rfl⟩ := mem_listServiceInstances.mp hinfo
      exact ⟨key, entry, hentry, rfl⟩
    · rintro ⟨key, entry, hentry, rfl⟩
      exact ⟨entry.info, mem_listServiceInstances.mpr ⟨key, entry, hentry, rfl⟩, rfl⟩
  simp only [sendInitialServiceWatch]
  split_ifs with hnone
  · refine (tell_spec fun _ => ?_).1
    rintro watchId' identity online hout rfl rfl
    cases hout
    -- an instance with the identity of the filter would have been listed
    cases hentry : s.registry.findEntry filter.serviceName filter.instanceId with
    | none => rfl
    | some entry =>
      obtain ⟨hname, hinstance⟩ := stored_under hentry
      have hmem := (hlisted entry.info.identity).mpr ⟨⟨_, entry, hentry, rfl⟩, by
        simp [ServiceWatchFilter.matches, ServiceInfo.identity, hname, hinstance]⟩
      rw [List.isEmpty_iff.mp hnone] at hmem
      cases hmem
  · refine (tell_all_spec _ (fun identity hidentity => ?_) fun _ => rfl).1
    obtain ⟨⟨key, entry, hentry, rfl⟩, -⟩ := (hlisted identity).mp hidentity
    obtain ⟨hname, hinstance⟩ := stored_under hentry
    have hfound : s.registry.findEntry entry.info.identity.name entry.info.identity.instanceId =
        some entry := by
      rw [← hentry, ← hname, ← hinstance]
      rfl
    rw [hfound]
    rfl

theorem told_handleSubscribeServiceWatch (hs : Told n i s) (halive : s.Alive fd) :
    Told n i (s.handleSubscribeServiceWatch fd msg) := by
  rcases handleSubscribeServiceWatch_cases s fd msg with hrefused | ⟨watchId, filters, hok, hmade⟩
  · rw [hrefused]
    exact (sends_boolReply (fun _ _ => id) s fd _ _ _).nested.told_of_quiet hs
  rw [hmade]
  have hreply := (sends_boolReply truthful_of_quiet _ fd MessageType.subscribeServiceWatchReply
    msg.sequence true).nested.told (told_watch ⟨halive, hok⟩ hs)
  refine (nested_foldl _ _ le_rfl fun filter _ s' _ _ => ?_).told hreply
  split_ifs
  · exact nested_initial_truthful fd watchId filter
  · exact .refl s'

end

/-! ### Runs -/

/-- A connection that registers an instance is still a client when its registration has been handled. -/
def App.registrantStays (s : App) (event : Event × List SendOutcome) : Bool :=
  match event.1 with
  | .message fd msg => msg.type ≠ MessageType.register || !s.clients.contains fd ||
      (s.step event).clients.contains fd
  | _ => true

theorem told_step {n i : Bytes} {event : Event × List SendOutcome} (hclean : Clean s)
    (hstays : s.registrantStays event = true) (hs : Told n i s) : Told n i (s.step event) := by
  rcases step_cases s event with
    hnested | ⟨fd, -, hdead, haccepted⟩ | ⟨fd, msg, conn, hevent, hconn, hmade⟩
  · exact hnested.told_of_quiet hs
  · refine hs.of_same (fun key group => ?_) (fun key group hfound _ => ?_) ?_ (fun key => ?_)
      fun hdropped => ?_
    · rw [haccepted.watchNotifier_eq]
      exact id
    · rw [haccepted.watchNotifier_eq] at hfound
      exact hclean.alive key.fd (mentions_iff.mpr (.inr (.inr (.inl ⟨key.watchId, group, hfound⟩))))
    · rw [haccepted.registry_eq]
    · rw [haccepted.trace_eq]
      rfl
    · rw [haccepted.trace_eq]
      exact hdropped
  · have hplan : Told n i { s with plan := event.2 } := told_touches (touches_plan s event.2) hs
    have halive : App.Alive { s with plan := event.2 } fd := ⟨conn, hconn⟩
    rw [hmade]
    by_cases hregister : msg.type = MessageType.register
    · have hstill : (s.step event).Alive fd := by
        have hthere : s.clients.contains fd = true := contains_iff.mpr ⟨conn, hconn⟩
        refine contains_iff.mp ?_
        simpa only [registrantStays, hevent, hregister, hthere, ne_eq, not_true_eq_false,
          decide_false, Bool.not_true, Bool.false_or] using hstays
      rw [hmade, dispatchMessage_register hregister] at hstill
      rw [dispatchMessage_register hregister]
      exact told_handleRegister hplan halive hstill
    · by_cases hunregister : msg.type = MessageType.unregister
      · rw [dispatchMessage_unregister hunregister]
        exact told_handleUnregister hplan
      by_cases hwatch : msg.type = MessageType.subscribeServiceWatch
      · rw [dispatchMessage_subscribeServiceWatch hwatch]
        exact told_handleSubscribeServiceWatch hplan halive
      have hsteps := (steps_dispatchMessage { s with plan := event.2 } fd msg hconn).mono
        (fun _ _ h => (h.resolve_left hregister).resolve_left hwatch) fun _ => id
      refine hsteps.invariant (fun _ _ h => h.told_of_quiet)
        (fun s' e hkind hfits => told_effect e hfits fun hconcerns => ?_) hplan
      cases e with
      | watch => exact hwatch hkind
      | register => exact hregister hkind
      | unregister => exact hunregister hkind
      | _ => exact hconcerns

/-- A watch of one service name. -/
def watchMessage (watchId : UInt64) (name : Bytes) : ReceivedMessage :=
  clientMessage MessageType.subscribeServiceWatch 3 (writeAll
    [(·.writeUint64 .succeeds watchId), (·.writeUint32 .succeeds 1), (·.writeString .succeeds name),
      (·.writeString .succeeds []), (·.writeString .succeeds [])])

/-- The reply to a registration cannot be sent: the connection is closed and its instance taken back, and
    then the instance is announced. -/
example :
    let s := (App.init 0 9).run
      [(.accept 4, []), (.message 4 (helloMessage 10 (ascii "a") 7), []), (.accept 5, []),
        (.message 5 (watchMessage 1 (ascii "S")), []),
        (.message 4 (registerMessage (ascii "S")), [.failed])]
    lastSaid ⟨5, 1⟩ (ascii "S") [] s.trace = some true ∧ s.registered (ascii "S") [] = false ∧
      ¬ s.Alive 4 := by
  decide +kernel

end OmniBinder.ServiceManager
