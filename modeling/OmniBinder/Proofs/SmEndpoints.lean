/-
Module: OmniBinder.Proofs.SmEndpoints
Purpose: Where publishers are said to be reached. A publication copies the endpoint of its instance from
  the registry, and goes when its instance or another one of the service is taken over.
Trusted boundary: none
Main exports: SameEndpoint, registration_keeps_other_publications_iff
-/
import OmniBinder.Proofs.SmOwnership

namespace OmniBinder.ServiceManager

open Option

/-- The same host, port and host id. -/
def SameEndpoint (info info' : ServiceInfo) : Prop :=
  info.host = info'.host ∧ info.port = info'.port ∧ info.hostId = info'.hostId

instance (info info' : ServiceInfo) : Decidable (SameEndpoint info info') :=
  inferInstanceAs (Decidable (_ ∧ _))

/-- A registration of an instance that the connection holds already and publishes topics for has the
    endpoint it had before. -/
def KeepsEndpoint (s : App) (event : Event × List SendOutcome) : Prop :=
  ∀ fd msg info entry, event.1 = .message fd msg → msg.type = MessageType.register →
    deserializeServiceInfo.run msg.payload = some info →
    s.registry.findEntry info.name info.instanceId = some entry → entry.controlFd = fd →
    (∃ topic, (s.topicManager.slot? info.name topic info.instanceId).isSome) →
    SameEndpoint info entry.info

/-- The connection registers nothing that it holds already at another endpoint, published or not. -/
def unmoved (s : App) (event : Event × List SendOutcome) : Bool :=
  match event.1 with
  | .message fd msg =>
    match deserializeServiceInfo.run msg.payload with
    | none => true
    | some info =>
      match s.registry.findEntry info.name info.instanceId with
      | none => true
      | some entry => decide (entry.controlFd = fd → SameEndpoint info entry.info)
  | _ => true

variable {s : App}

theorem keepsEndpoint_of_unmoved {event : Event × List SendOutcome} (h : unmoved s event = true) :
    KeepsEndpoint s event := by
  intro fd msg info entry hevent _ hinfo hentry howner _
  simp only [unmoved, hevent, hinfo, hentry] at h
  exact of_decide_eq_true h howner

/-- A publication of the owner of an instance has the endpoint of the instance. -/
def Faithful (s : App) : Prop :=
  ∀ n t i slot entry, s.topicManager.slot? n t i = some slot →
    s.registry.findEntry n i = some entry → entry.controlFd = slot.fd →
    SameEndpoint slot.info entry.info

theorem Faithful.of_shrinks {s' : App} (h : Faithful s) (hs : Shrinks s s') : Faithful s' :=
  fun n t i slot entry hslot hentry =>
    h n t i slot entry ((hs.slot n t i slot).mp hslot).1 ((hs.registry n i entry).mp hentry).1

variable {fd : Int}

/-- A publication takes its endpoint from the registry, and the other changes but a registration bring
    neither publications nor instances. -/
theorem faithful_effect (e : Effect) (hfits : e.Fits fd s) (hregister : ∀ info, e ≠ .register info)
    (hs : Faithful s) : Faithful (e.apply fd s) := by
  intro n t i slot entry hslot hentry howner
  rcases findEntry_effect e hfits hentry with ⟨info, he, -⟩ | hbefore
  · exact absurd he (hregister info)
  rcases slot?_effect e hfits hslot with ⟨topic, info, idlHash, rfl, rfl, -, rfl, rfl⟩ | ⟨-, hold⟩
  · obtain ⟨-, -, entry', parsed, -, hentry', -, rfl⟩ := hfits
    rw [hbefore, Option.some.injEq] at hentry'
    exact hentry' ▸ ⟨rfl, rfl, rfl⟩
  · exact hs n t i slot entry hold hbefore howner

/-- A registration that keeps the endpoint of what is published. -/
theorem faithful_register {info : ServiceInfo} (hfits : (Effect.register info).Fits fd s)
    (howned : Owned s)
    (hkeeps : ∀ entry, s.registry.findEntry info.name info.instanceId = some entry → entry.controlFd = fd → (∃ topic, (s.topicManager.slot? info.name topic info.instanceId).isSome) → SameEndpoint info entry.info)
    (hs : Faithful s) :
    Faithful ((Effect.register info).apply fd s) := by
  intro n t i slot entry hslot hentry howner
  replace hslot : s.topicManager.slot? n t i = some slot := hslot
  rcases findEntry_effect _ hfits hentry with ⟨_, he, rfl, rfl, hfd, rfl⟩ | hold
  · -- the publication is of the connection itself, so it held the instance before
    cases he
    obtain ⟨old, hold, holder⟩ := howned _ t _ slot hslot not_false
    have hsame := hkeeps old hold (holder.trans (howner.symm.trans hfd)) ⟨t, by rw [hslot]; rfl⟩
    obtain ⟨hhost, hport, hhostId⟩ := hs _ t _ slot old hslot hold holder
    exact ⟨hhost.trans hsame.1.symm, hport.trans hsame.2.1.symm, hhostId.trans hsame.2.2.symm⟩
  · exact hs n t i slot entry hslot hold howner

theorem faithful_handleRegister (hsettled : Settled s) (halive : s.Alive fd)
    (conn : ClientConnection) (msg : ReceivedMessage)
    (hkeeps : ∀ info entry, deserializeServiceInfo.run msg.payload = some info → s.registry.findEntry info.name info.instanceId = some entry → entry.controlFd = fd → (∃ topic, (s.topicManager.slot? info.name topic info.instanceId).isSome) → SameEndpoint info entry.info)
    (hs : Faithful s) : Faithful (s.handleRegister fd conn msg) := by
  rcases handleRegister_cases s fd msg conn with hrefused | ⟨info, hhandle, hinfo, hmade⟩
  · rw [hrefused]
    exact hs.of_shrinks (sends_reply (fun _ _ => id) s fd _ _ rfl).nested.shrinks
  have hfits : (Effect.register info).Fits fd s := ⟨halive, hhandle, received_of_run hinfo⟩
  have hregistered := faithful_register hfits hsettled.owned
    (fun entry => hkeeps info entry hinfo) hs
  have hannounced := hregistered.of_shrinks (nested_announced s fd msg.sequence info).shrinks
  rw [hmade]
  -- what the displaced connection publishes is only taken away
  have hrelease : Steps Quiet (fun e => ∃ name owner, e = .dropPublishers name owner) fd
      (s.announced fd msg.sequence info) _ := steps_releaseDisplaced _ fd quiet_of_unprompted
    (fun name owner => ⟨name, owner, rfl⟩) info.name (s.registry.addService info fd).2.1 fd
  refine hrelease.invariant (fun _ _ h hs => hs.of_shrinks h.shrinks) ?_ hannounced
  rintro s' _ ⟨name, owner, rfl⟩ hfits hs'
  exact faithful_effect _ hfits nofun hs'

theorem faithful_step (event : Event × List SendOutcome) (hsettled : Settled s)
    (hkeeps : KeepsEndpoint s event) (hs : Faithful s) : Faithful (s.step event) := by
  rcases step_cases s event with hnested | ⟨fd, -, -, haccepted⟩ |
    ⟨fd, msg, conn, hevent, hconn, hmade⟩
  · exact hs.of_shrinks hnested.shrinks
  · intro n t i slot entry hslot hentry
    exact hs n t i slot entry (haccepted.topicManager_eq ▸ hslot) (haccepted.registry_eq ▸ hentry)
  have htouch : Nested Quiet s { s with plan := event.2 } := .touch (touches_plan s event.2)
  rw [hmade]
  by_cases hregister : msg.type = MessageType.register
  · rw [dispatchMessage_register hregister]
    exact faithful_handleRegister (htouch.settled hsettled) ⟨conn, hconn⟩ conn msg
      (fun info entry => hkeeps fd msg info entry hevent hregister) (hs.of_shrinks htouch.shrinks)
  · refine (steps_dispatchMessage { s with plan := event.2 } fd msg hconn).invariant
      (fun _ _ h hs => hs.of_shrinks h.shrinks)
      (fun _ e hkind hfits => faithful_effect e hfits ?_) (hs.of_shrinks htouch.shrinks)
    rintro info rfl
    exact hregister hkind

/-- In every run whose registrations keep the endpoints of what is published, every publication is of the
    connection that holds its instance and has the endpoint the registry has for the instance. -/
theorem publishers_advertise_registry (heartbeatTimeoutMs smIncarnationId : UInt32)
    {events : List (Event × List SendOutcome)}
    (hruns : (App.init heartbeatTimeoutMs smIncarnationId).RunsUnder KeepsEndpoint events) :
    let s := (App.init heartbeatTimeoutMs smIncarnationId).run events
    ∀ name topic instanceId slot, s.topicManager.slot? name topic instanceId = some slot →
      slot.info.name = name ∧ slot.info.instanceId = instanceId ∧
        ∃ entry, s.registry.findEntry name instanceId = some entry ∧ entry.controlFd = slot.fd ∧
          SameEndpoint slot.info entry.info := by
  intro s name topic instanceId slot hslot
  obtain ⟨hname, hinstance⟩ := (TopicManager.indexed _).slot_named hslot
  have hinit : Faithful (App.init heartbeatTimeoutMs smIncarnationId) := by
    intro n t i slot entry hslot
    simp [App.init] at hslot
  have hs : Settled s ∧ Faithful s := run_invariant (P := fun s => Settled s ∧ Faithful s)
    (fun s event hs hkeeps => ⟨settled_step event hs.1, faithful_step event hs.1 hkeeps hs.2⟩)
    ⟨settled_init _ _, hinit⟩ hruns
  obtain ⟨entry, hentry, howner⟩ := hs.1.owned name topic instanceId slot hslot not_false
  exact ⟨hname, hinstance, entry, hentry, howner,
    hs.2 name topic instanceId slot entry hslot hentry howner⟩

/-! ### An instance that moves -/

/-- The registration of service `S` at a port. -/
def registerAt (port : UInt16) : ReceivedMessage :=
  clientMessage MessageType.register 2
    (serializeServiceInfo .succeeds { ServiceInfo.init with name := ascii "S", port })

/-- The publication of topic `T` for service `S`. -/
def publishSample : ReceivedMessage :=
  clientMessage MessageType.publishTopic 3 fun buf =>
    serializeServiceInfo .succeeds { ServiceInfo.init with name := ascii "S" }
      (buf.writeString .succeeds (ascii "T")).2

/-- A client that registers at port 1, publishes and registers again. -/
def movingRun (port : UInt16) : List (Event × List SendOutcome) :=
  [(.accept 4, []), (.message 4 (helloMessage 10 (ascii "a") 1), []), (.message 4 (registerAt 1), []),
    (.message 4 publishSample, []), (.message 4 (registerAt port), [])]

/-- The ports that are advertised for topic `T` and registered for service `S`. -/
def samplePorts (s : App) : Option UInt16 × Option UInt16 :=
  ((s.topicManager.slot? (ascii "S") (ascii "T") []).map (·.info.port),
    (s.registry.findEntry (ascii "S") []).map (·.info.port))

theorem repeated_registration_keeps_port : ∃ slot entry,
      ((App.init 0 7).run (movingRun 1)).topicManager.slot? (ascii "S") (ascii "T") [] = some slot ∧
        ((App.init 0 7).run (movingRun 1)).registry.findEntry (ascii "S") [] = some entry ∧
        SameEndpoint slot.info entry.info := by
  have hthere : (((App.init 0 7).run (movingRun 1)).topicManager.slot? (ascii "S") (ascii "T") []).isSome
      = true := by decide +kernel
  obtain ⟨slot, hslot⟩ := isSome_iff_exists.mp hthere
  have hunmoved : (App.init 0 7).RunsUnder (fun s event => unmoved s event = true) (movingRun 1) := by
    decide +kernel
  obtain ⟨-, -, entry, hentry, -, hsame⟩ := publishers_advertise_registry 0 7
    (hunmoved.mono fun _ _ => keepsEndpoint_of_unmoved) (ascii "S") (ascii "T") [] slot hslot
  exact ⟨slot, entry, hslot, hentry, hsame⟩

/-- The registry has the new port, the publication still has the old one. -/
theorem moved_instance_advertised_at_old_port :
    samplePorts ((App.init 0 7).run (movingRun 2)) = (some 1, some 2) := by
  decide +kernel

/-! ### An instance that is taken over -/

/-- The connection of which an accepted registration takes the instance. -/
theorem displaced_iff {info : ServiceInfo} {owner : Int}
    (haccepted : (s.registry.addService info fd).1 ≠ invalidHandle) (hnonneg : 0 ≤ owner) :
    (s.registry.addService info fd).2.1 = owner ↔ owner ≠ fd ∧ ∃ entry,
      s.registry.findEntry info.name info.instanceId = some entry ∧ entry.controlFd = owner := by
  rw [s.registry.addService_displaced info fd haccepted]
  cases s.registry.findEntry info.name info.instanceId with
  | none =>
    dsimp only
    exact iff_of_false (by omega) (by simp)
  | some old =>
    dsimp only
    split_ifs with hother
    · simp only [Option.some.injEq, exists_eq_left']
      exact ⟨fun howner => ⟨howner ▸ hother, howner⟩, And.right⟩
    · refine iff_of_false (by omega) ?_
      rintro ⟨hne, entry, hentry, rfl⟩
      exact hne (Option.some.inj hentry ▸ not_not.mp hother)

/-- What a connection that stays publishes after a release: nothing for the service if it was the one
    to be released. -/
theorem slot?_releaseDisplaced {name : Bytes} {displacedFd newFd : Int} {slot : PublisherSlot}
    (hstays : (s.releaseDisplaced name displacedFd newFd).Alive slot.fd)
    (hreleased : displacedFd = slot.fd → 0 ≤ displacedFd ∧ displacedFd ≠ newFd) (n t i : Bytes) :
    (s.releaseDisplaced name displacedFd newFd).topicManager.slot? n t i = some slot ↔
      s.topicManager.slot? n t i = some slot ∧ ¬ (n = name ∧ slot.fd = displacedFd) := by
  have hdropped : (s.topicManager.removePublishersByService name displacedFd).slot? n t i = some slot ↔
      s.topicManager.slot? n t i = some slot ∧ ¬ (n = name ∧ slot.fd = displacedFd) := by
    rw [TopicManager.slot?_removePublishersByService, filter_eq_some_iff, Bool.not_eq_true',
      decide_eq_false_iff_not]
  simp only [App.releaseDisplaced] at hstays ⊢
  split_ifs at hstays ⊢ with hrelease hempty
  · exact (((closeClient_spec displacedFd true _).1.shrinks.slot n t i slot).trans
      (and_iff_left fun _ => hstays)).trans hdropped
  · exact hdropped
  · refine (and_iff_left fun hboth => hrelease ?_).symm
    obtain ⟨hnonneg, hne⟩ := hreleased hboth.2.symm
    exact ⟨hnonneg, hne, App.contains_iff.mpr (hboth.2 ▸ hstays)⟩

/-- The connection loses the instance to a registration on another one and publishes for another
    instance of the same service. -/
def LosesOneOfSeveral (s : App) (fd : Int) (info : ServiceInfo) (owner : Int) : Prop :=
  (owner ≠ fd ∧ ∃ entry, s.registry.findEntry info.name info.instanceId = some entry ∧
    entry.controlFd = owner) ∧
  ∃ t i slot, i ≠ info.instanceId ∧ s.topicManager.slot? info.name t i = some slot ∧ slot.fd = owner

/-- In every reachable state, an accepted registration keeps what a connection that stays publishes for
    other instances, unless it takes one of several instances of a service from the connection: then
    everything that the connection publishes for the service goes. -/
theorem registration_keeps_other_publications_iff {s : App} (hreachable : s.Reachable) {fd : Int}
    {conn : ClientConnection} (hconn : s.clients[fd]? = some conn) (hhello : conn.helloReceived = true)
    {msg : ReceivedMessage} (hregister : msg.type = MessageType.register) {info : ServiceInfo}
    (hinfo : deserializeServiceInfo.run msg.payload = some info)
    (haccepted : (s.registry.addService info fd).1 ≠ invalidHandle) (plan : List SendOutcome)
    {owner : Int} (hstays : (s.step (.message fd msg, plan)).Alive owner) :
    (∀ n t i slot, slot.fd = owner → ¬ (n = info.name ∧ i = info.instanceId) →
      ((s.step (.message fd msg, plan)).topicManager.slot? n t i = some slot ↔
        s.topicManager.slot? n t i = some slot)) ↔ ¬ LosesOneOfSeveral s fd info owner := by
  have hsettled := settled_of_reachable hreachable
  rw [step_register hconn hhello hregister hinfo haccepted] at hstays ⊢
  have hannounced := (nested_announced { s with plan } fd msg.sequence info).shrinks
  have halive₁ := alive_releaseDisplaced hstays
  have hfits : (Effect.register info).Fits fd { s with plan } :=
    ⟨⟨conn, hconn⟩, haccepted, received_of_run hinfo⟩
  have hnonneg := hsettled.nonneg owner ((alive_effect _ hfits owner).mp (hannounced.alive halive₁))
  have hdisplaced := displaced_iff haccepted hnonneg
  -- the former owner, if it stays, is released
  have hslot : ∀ n t i slot, slot.fd = owner →
      (((App.announced { s with plan } fd msg.sequence info).releaseDisplaced info.name
        (s.registry.addService info fd).2.1 fd).topicManager.slot? n t i = some slot ↔
      s.topicManager.slot? n t i = some slot ∧
        ¬ (n = info.name ∧ owner = (s.registry.addService info fd).2.1)) := by
    rintro n t i slot rfl
    refine (slot?_releaseDisplaced hstays (fun h => ?_) n t i).trans ?_
    · rw [h]
      exact ⟨hnonneg, (hdisplaced.mp h).1⟩
    · rw [hannounced.slot n t i slot]
      exact and_congr_left' (and_iff_left fun _ => halive₁)
  constructor
  · rintro hkept ⟨hlost, t, i, slot, hother, hthere, howner⟩
    have hstill := (hkept info.name t i slot howner fun h => hother h.2).mpr hthere
    exact ((hslot _ t i slot howner).mp hstill).2 ⟨rfl, (hdisplaced.mpr hlost).symm⟩
  · intro hnot n t i slot howner hother
    refine (hslot n t i slot howner).trans (and_iff_left_of_imp fun hthere hboth => hnot ?_)
    exact ⟨hdisplaced.mp hboth.2.symm, t, i, slot, fun h => hother ⟨hboth.1, h⟩, hboth.1 ▸ hthere,
      howner⟩

/-- The registration of an instance of service `S`. -/
def registerInstance (instanceId : Bytes) : ReceivedMessage :=
  clientMessage MessageType.register 2
    (serializeServiceInfo .succeeds { ServiceInfo.init with name := ascii "S", instanceId })

/-- A client that publishes for one of its two instances, and another client. -/
def severalInstances : App :=
  (App.init 0 7).run
    [(.accept 4, []), (.message 4 (helloMessage 10 (ascii "a") 1), []),
      (.message 4 (registerInstance []), []), (.message 4 publishSample, []),
      (.message 4 (registerInstance (ascii "2")), []), (.accept 5, []),
      (.message 5 (helloMessage 11 (ascii "b") 1), [])]

theorem new_instance_keeps_publications :
    let s := severalInstances.step (.message 5 (registerInstance (ascii "3")), [])
    s.Alive 4 ∧ ∃ info : ServiceInfo, info.instanceId = ascii "3" ∧
      ∀ n t i slot, slot.fd = 4 → ¬ (n = info.name ∧ i = info.instanceId) →
        (s.topicManager.slot? n t i = some slot ↔
          severalInstances.topicManager.slot? n t i = some slot) := by
  have hstays : (severalInstances.step (.message 5 (registerInstance (ascii "3")), [])).Alive 4 := by
    decide +kernel
  have hgreeted : (severalInstances.clients[(5 : Int)]?).map (·.helloReceived) = some true := by
    decide +kernel
  have hread : (deserializeServiceInfo.run (registerInstance (ascii "3")).payload).map (fun info =>
      (info.instanceId, decide ((severalInstances.registry.addService info 5).1 = invalidHandle),
        (severalInstances.registry.findEntry info.name info.instanceId).isNone)) =
      some (ascii "3", false, true) := by decide +kernel
  obtain ⟨conn, hconn, hhello⟩ := map_eq_some_iff.mp hgreeted
  obtain ⟨info, hinfo, hfacts⟩ := map_eq_some_iff.mp hread
  simp only [Prod.mk.injEq, decide_eq_false_iff_not, isNone_iff_eq_none] at hfacts
  refine ⟨hstays, info, hfacts.1, (registration_keeps_other_publications_iff ⟨_, _, _, rfl⟩ hconn hhello
    (by decide +kernel) hinfo hfacts.2.1 [] hstays).mpr ?_⟩
  rintro ⟨⟨_, entry, hentry, _⟩, _⟩
  cases hfacts.2.2.symm.trans hentry

/-- The client keeps its connection and its other instance, but nothing is published for it any more. -/
theorem takeover_drops_publication_of_other_instance :
    let s := severalInstances.step (.message 5 (registerInstance (ascii "2")), [])
    (severalInstances.topicManager.slot? (ascii "S") (ascii "T") []).map (·.fd) = some 4 ∧ s.Alive 4 ∧
      (s.registry.findEntry (ascii "S") []).map (·.controlFd) = some 4 ∧
      (s.topicManager.slot? (ascii "S") (ascii "T") []).isNone = true := by
  decide +kernel

end OmniBinder.ServiceManager
