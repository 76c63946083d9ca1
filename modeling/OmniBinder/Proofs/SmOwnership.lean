/-
Module: OmniBinder.Proofs.SmOwnership
Purpose: What belongs to a client.
Trusted boundary: none
Main exports: OwnedBut, message_leaves_others_alone
-/
import OmniBinder.Proofs.SmCleanup

namespace OmniBinder.ServiceManager

open MessageType

/-! ### Publications and the instances they are published for -/

/-- Every publication is of the owner of its instance, but for those of one connection for one service,
    which are on their way out. -/
def OwnedBut (except : Int → Bytes → Prop) (s : App) : Prop :=
  ∀ n t i slot, s.topicManager.slot? n t i = some slot → ¬ except slot.fd n →
    ∃ entry, s.registry.findEntry n i = some entry ∧ entry.controlFd = slot.fd

abbrev Owned (s : App) : Prop := OwnedBut (fun _ _ => False) s

variable {s s' : App}

theorem OwnedBut.of_shrinks {except : Int → Bytes → Prop} (h : OwnedBut except s)
    (hs : Shrinks s s') : OwnedBut except s' := by
  intro n t i slot hslot hexcept
  obtain ⟨hslot, hkept⟩ := (hs.slot n t i slot).mp hslot
  obtain ⟨entry, hentry, howner⟩ := h n t i slot hslot hexcept
  exact ⟨entry, (hs.registry n i entry).mpr ⟨hentry, howner ▸ hkept⟩, howner⟩

/-- Nothing is on its way out between events, and descriptors are not negative. -/
structure Settled (s : App) : Prop where
  clean : Clean s
  owned : Owned s
  nonneg : ∀ fd, s.Alive fd → 0 ≤ fd

variable {ok : ServiceRegistry → Outgoing → Prop}

theorem Nested.settled (h : Nested ok s s') (hs : Settled s) : Settled s' :=
  ⟨h.clean hs.clean, hs.owned.of_shrinks h.shrinks, fun fd hfd => hs.nonneg fd (h.shrinks.alive hfd)⟩

/-- The publications that go with an instance: dropping them settles what was on its way out. -/
theorem owned_dropPublishers {name : Bytes} {owner : Int}
    (h : OwnedBut (fun fd n => fd = owner ∧ n = name) s) (fd : Int) :
    Owned ((Effect.dropPublishers name owner).apply fd s) := by
  intro n t i slot hslot _
  have hslot := (s.topicManager.slot?_removePublishersByService name owner n t i).symm.trans hslot
  obtain ⟨hslot, hkept⟩ := Option.filter_eq_some_iff.mp hslot
  refine h n t i slot hslot fun hboth => ?_
  simp [hboth.1, hboth.2] at hkept

variable {fd : Int}

/-- The changes that keep the publications with their owners by themselves. -/
theorem owned_effect (e : Effect) (hfits : e.Fits fd s) (hregister : ∀ info, e ≠ .register info)
    (hunregister : ∀ identity, e ≠ .unregister identity) (hs : Owned s) :
    Owned (e.apply fd s) := by
  intro n t i slot hslot hexcept
  rw [registry_effect e hregister hunregister]
  rcases slot?_effect e hfits hslot with ⟨topic, info, idlHash, rfl, rfl, -, rfl, rfl⟩ | ⟨-, hold⟩
  · obtain ⟨-, -, entry, -, howner, hentry, -, -⟩ := hfits
    exact ⟨entry, hentry, howner⟩
  · exact hs n t i slot hold hexcept

/-! ### Registering and unregistering -/

theorem OwnedBut.all {except : Int → Bytes → Prop} (h : OwnedBut except s)
    (hnone : ∀ n t i slot, s.topicManager.slot? n t i = some slot → ¬ except slot.fd n) :
    Owned s :=
  fun n t i slot hslot _ => h n t i slot hslot (hnone n t i slot hslot)

/-- After an instance is taken over, only what its former owner publishes for the service is left
    without an owner. -/
theorem owned_register {info : ServiceInfo} (hfits : (Effect.register info).Fits fd s)
    (hs : Owned s) :
    OwnedBut (fun owner n => owner = (s.registry.addService info fd).2.1 ∧ n = info.name)
      ((Effect.register info).apply fd s) := by
  intro n t i slot hslot hexcept
  obtain ⟨entry, hentry, howner⟩ := hs n t i slot hslot not_false
  rcases s.registry.addService_cases info fd with ⟨hrefused, -⟩ | ⟨-, handle, hfind⟩
  · exact absurd hrefused hfits.2.1
  have hfound : ((Effect.register info).apply fd s).registry.findEntry n i =
      if info.name = n ∧ info.instanceId = i then some ⟨info, handle, fd⟩
      else s.registry.findEntry n i := hfind n i
  split_ifs at hfound with hsame
  · obtain ⟨rfl, rfl⟩ := hsame
    refine ⟨_, hfound, ?_⟩
    -- the instance was there, so its owner is the new one or was displaced
    by_contra hother
    refine hexcept ⟨?_, rfl⟩
    rw [s.registry.addService_displaced info fd hfits.2.1, hentry, ← howner]
    exact (if_pos fun heq => hother (heq.symm.trans howner)).symm
  · exact ⟨entry, hfound.trans hentry, howner⟩

theorem owned_releaseDisplaced {name : Bytes} {displacedFd newFd : Int} (hclean : Clean s)
    (hnonneg : ∀ fd, s.Alive fd → 0 ≤ fd) (hne : s.Alive displacedFd → displacedFd ≠ newFd)
    (h : OwnedBut (fun owner n => owner = displacedFd ∧ n = name) s) :
    Owned (s.releaseDisplaced name displacedFd newFd) := by
  simp only [App.releaseDisplaced]
  split_ifs with hrelease
  · exact (owned_dropPublishers h newFd).of_shrinks (closeClient_spec displacedFd true _).1.shrinks
  · exact owned_dropPublishers h newFd
  -- a connection that publishes is a client, so it would have been released
  refine h.all fun n t i slot hslot hboth => hrelease ?_
  have halive : s.Alive displacedFd := hboth.1 ▸ hclean.alive slot.fd
    (mentions_iff.mpr (.inr (.inl (TopicTables.mentions_of_slot hslot))))
  exact ⟨hnonneg displacedFd halive, hne halive, App.contains_iff.mpr halive⟩

theorem owned_handleRegister (hs : Settled s) (halive : s.Alive fd) (conn : ClientConnection)
    (msg : ReceivedMessage) :
    Owned (s.handleRegister fd conn msg) := by
  rcases handleRegister_cases s fd msg conn with
    hrefused | ⟨info, hhandle, hinfo, hmade⟩
  · rw [hrefused]
    exact hs.owned.of_shrinks (sends_reply (fun _ _ => id) s fd _ _ rfl).nested.shrinks
  have hfits : (Effect.register info).Fits fd s := ⟨halive, hhandle, received_of_run hinfo⟩
  have hannounced := nested_announced s fd msg.sequence info
  rw [hmade]
  refine owned_releaseDisplaced (hannounced.clean (clean_effect _ hfits hs.clean))
    (fun fd' hfd' => hs.nonneg fd' ?_) (fun hdisplaced => ?_)
    ((owned_register hfits hs.owned).of_shrinks hannounced.shrinks)
  · exact (alive_effect _ hfits fd').mp (hannounced.shrinks.alive hfd')
  have hold : 0 ≤ (s.registry.addService info fd).2.1 :=
    hs.nonneg _ ((alive_effect _ hfits _).mp (hannounced.shrinks.alive hdisplaced))
  rw [s.registry.addService_displaced info fd hhandle] at hold ⊢
  split at hold
  · omega
  · split_ifs at hold with hother
    · simp [hother]
    · omega

theorem owned_handleUnregister (hs : Settled s) (halive : s.Alive fd) (msg : ReceivedMessage) :
    Owned (s.handleUnregister fd msg) := by
  rcases handleUnregister_cases s fd msg with hrefused | ⟨identity, hfits, hmade⟩
  · rw [hrefused]
    exact hs.owned.of_shrinks (sends_boolReply (fun _ _ => id) s fd _ _ _).nested.shrinks
  have hremoved : OwnedBut (fun owner n => owner = fd ∧ n = identity.name)
      ((Effect.unregister identity).apply fd s) := by
    intro n t i slot hslot hexcept
    obtain ⟨entry, hentry, howner⟩ := hs.owned n t i slot hslot not_false
    refine ⟨entry, ?_, howner⟩
    refine (s.registry.findEntry_removeServiceByIdentity identity n i).trans ((if_neg ?_).trans hentry)
    rintro ⟨rfl, rfl⟩
    obtain ⟨entry', howner', -, hentry'⟩ := hfits
    rw [hentry, Option.some.injEq] at hentry'
    exact hexcept ⟨by rw [← howner, hentry', howner'], rfl⟩
  have htold := (sends_notifyServiceRemoved _ quiet_of_unprompted (findEntry_unregister s fd identity)).nested.shrinks
  rw [hmade, if_pos (hs.nonneg fd halive)]
  exact (owned_dropPublishers (hremoved.of_shrinks htold) fd).of_shrinks
    (sends_boolReply (fun _ _ => id) _ fd _ _ _).nested.shrinks

theorem owned_step (event : Event × List SendOutcome) (hs : Settled s) :
    Owned (s.step event) := by
  rcases step_cases s event with hnested | ⟨fd, -, -, haccepted⟩ | ⟨fd, msg, conn, -, hconn, hmade⟩
  · exact hs.owned.of_shrinks hnested.shrinks
  · intro n t i slot hslot hexcept
    rw [haccepted.registry_eq]
    exact hs.owned n t i slot (haccepted.topicManager_eq ▸ hslot) hexcept
  · have htouch : Nested Quiet s { s with plan := event.2 } := .touch (touches_plan s event.2)
    have hplan := htouch.settled hs
    have halive : App.Alive { s with plan := event.2 } fd := ⟨conn, hconn⟩
    rw [hmade]
    by_cases hregister : msg.type = register
    · rw [dispatchMessage_register hregister]
      exact owned_handleRegister hplan halive conn msg
    by_cases hunregister : msg.type = unregister
    · rw [dispatchMessage_unregister hunregister]
      exact owned_handleUnregister hplan halive msg
    refine (steps_dispatchMessage { s with plan := event.2 } fd msg hconn).invariant
      (fun _ _ h hs => hs.of_shrinks h.shrinks)
      (fun _ e hkind hfits => owned_effect e hfits ?_ ?_) hplan.owned
    · rintro info rfl
      exact hregister hkind
    · rintro identity rfl
      exact hunregister hkind

theorem settled_step (event : Event × List SendOutcome) (hs : Settled s) : Settled (s.step event) := by
  refine ⟨clean_step event hs.clean, owned_step event hs, ?_⟩
  refine step_invariant (P := fun s => ∀ fd, s.Alive fd → 0 ≤ fd)
    (fun _ _ h hs fd hfd => hs fd (h.shrinks.alive hfd)) (fun s s' fd _ h hs fd' hfd' => ?_)
    (fun _ _ e hfits hs fd hfd => hs fd ((alive_effect e hfits fd).mp hfd)) event hs.nonneg
  obtain ⟨p, hp⟩ := App.alive_iff_profile.mp hfd'
  rw [h.profile_eq] at hp
  split_ifs at hp with hsame
  · exact hsame ▸ Int.natCast_nonneg fd
  · exact hs fd' (App.alive_iff_profile.mpr ⟨p, hp⟩)

theorem settled_init (heartbeatTimeoutMs smIncarnationId : UInt32) :
    Settled (App.init heartbeatTimeoutMs smIncarnationId) where
  clean := clean_init _ _
  owned := fun n t i slot hslot => by simp [App.init] at hslot
  nonneg := fun fd hfd => by
    obtain ⟨conn, hconn⟩ := hfd
    simp [App.init] at hconn

theorem settled_of_reachable (h : s.Reachable) : Settled s := h.invariant settled_init settled_step

/-! ### What belongs to others -/

/-- What belongs to the connections other than one is the same in both states. -/
structure SameForOthers (fd : Int) (s s' : App) : Prop where
  registry : ∀ n k entry, entry.controlFd ≠ fd →
    (s'.registry.findEntry n k = some entry ↔ s.registry.findEntry n k = some entry)
  slot : ∀ n t i slot, slot.fd ≠ fd →
    (s'.topicManager.slot? n t i = some slot ↔ s.topicManager.slot? n t i = some slot)
  subscription : ∀ n t fd' k, fd' ≠ fd →
    s'.topicManager.subscription? n t fd' k = s.topicManager.subscription? n t fd' k
  group : ∀ key, key.fd ≠ fd → s'.watchNotifier.group? key = s.watchNotifier.group? key

theorem SameForOthers.trans {s'' : App} (h : SameForOthers fd s s') (h' : SameForOthers fd s' s'') :
    SameForOthers fd s s'' where
  registry := fun n k entry hne => (h'.registry n k entry hne).trans (h.registry n k entry hne)
  slot := fun n t i slot hne => (h'.slot n t i slot hne).trans (h.slot n t i slot hne)
  subscription := fun n t fd' k hne =>
    (h'.subscription n t fd' k hne).trans (h.subscription n t fd' k hne)
  group := fun key hne => (h'.group key hne).trans (h.group key hne)

/-- When no client goes, everything stays with its owner. -/
theorem Shrinks.sameForOthers (h : Shrinks s s') (hkept : ∀ fd, s.Alive fd → s'.Alive fd) (fd : Int) :
    SameForOthers fd s s' where
  registry := fun n k entry _ => (h.registry n k entry).trans (and_iff_left (hkept _))
  slot := fun n t i slot _ => (h.slot n t i slot).trans (and_iff_left (hkept _))
  subscription := fun n t fd' k _ => Option.ext fun selector =>
    (h.subscription n t fd' k selector).trans (and_iff_left (hkept _))
  group := fun key _ => Option.ext fun group => (h.group key group).trans (and_iff_left (hkept _))

/-- Slots that go with their connection are not those of others. -/
theorem filter_slot_iff {slot? : Option PublisherSlot} {slot : PublisherSlot} {drop : PublisherSlot → Bool}
    (hkeep : drop slot = false) :
    slot?.filter (fun slot => !drop slot) = some slot ↔ slot? = some slot := by
  rw [Option.filter_eq_some_iff, hkeep]
  exact and_iff_left rfl

/-- The slot that is replaced was of the owner of the instance, which is the connection itself. -/
theorem slot?_publish_of_ne {topic : Bytes} {info : ServiceInfo} {idlHash : UInt32}
    (hfits : (Effect.publish topic info idlHash).Fits fd s) (hs : Owned s)
    (n t i : Bytes) {slot : PublisherSlot} (hne : slot.fd ≠ fd) :
    (s.topicManager.registerPublisher topic info fd idlHash).2.slot? n t i = some slot ↔
      s.topicManager.slot? n t i = some slot := by
  obtain ⟨-, hok, entry, -, howner, hentry, -, -⟩ := hfits
  rcases s.topicManager.registerPublisher_cases topic info fd idlHash with
    ⟨hrefused, -⟩ | ⟨-, -, -, hslots⟩
  · rw [hrefused] at hok
    cases hok
  rw [hslots]
  split_ifs with hsame
  · obtain ⟨rfl, rfl, rfl⟩ := hsame
    refine iff_of_false (fun hnew => hne ?_) fun hold => hne ?_
    · rw [← Option.some.inj hnew]
    · obtain ⟨entry', hentry', howner'⟩ := hs _ _ _ slot hold not_false
      rw [hentry, Option.some.injEq] at hentry'
      rw [← howner', ← hentry', howner]
  · exact Iff.rfl

/-- A change takes away or replaces only what belongs to its connection. -/
theorem sameForOthers_effect (e : Effect) (hfits : e.Fits fd s)
    (hregister : ∀ info, e ≠ .register info)
    (hdrop : ∀ name owner, e = .dropPublishers name owner → owner = fd)
    (hpublish : ∀ topic info idlHash, e = .publish topic info idlHash → Owned s) :
    SameForOthers fd s (e.apply fd s) := by
  refine ⟨fun n k entry hne => ?_, fun n t i slot hne => ?_, fun n t fd' k hne => ?_, fun key hne => ?_⟩
  · cases e with
    | register info => exact absurd rfl (hregister info)
    | unregister identity =>
      obtain ⟨owned, howner, -, howned⟩ := hfits
      refine Eq.congr_left (s.registry.findEntry_removeServiceByIdentity identity n k) |>.trans ?_
      split_ifs with hsame
      · obtain ⟨rfl, rfl⟩ := hsame
        refine iff_of_false not_false fun hold => hne ?_
        rw [howned, Option.some.injEq] at hold
        rw [← hold, howner]
      · exact Iff.rfl
    | greet => rw [Effect.apply, (greeted_enterSession ..).registry_eq]
    | _ => exact Iff.rfl
  · cases e with
    | publish => exact slot?_publish_of_ne hfits (hpublish _ _ _ rfl) n t i hne
    | dropPublishers name owner =>
      obtain rfl := hdrop name owner rfl
      rw [Effect.apply, TopicManager.slot?_removePublishersByService]
      exact filter_slot_iff (by simp [hne])
    | unpublish topic =>
      rw [Effect.apply, TopicManager.slot?_removePublisher _ hfits]
      exact filter_slot_iff (by simp [hne])
    | subscribe => rw [Effect.apply, TopicManager.slot?_addSubscriber]
    | unsubscribe => rw [Effect.apply, TopicManager.slot?_removeSubscriber]
    | greet => rw [Effect.apply, (greeted_enterSession ..).topicManager_eq]
    | _ => exact Iff.rfl
  · cases e with
    | publish => exact s.topicManager.subscription?_registerPublisher _ _ fd _ n t fd' k
    | dropPublishers => exact (TopicTables.prunes_removePublishersByService _ _ _).subscription_eq n t fd' k
    | unpublish => exact (TopicTables.prunes_removePublisher _ _ _).subscription_eq n t fd' k
    | subscribe topic selector =>
      rcases s.topicManager.addSubscriber_cases topic selector fd with ⟨-, hsame⟩ | ⟨-, -, hadded⟩
      · exact hsame n t fd' k
      · exact (hadded n t fd' k).trans (if_neg fun hall => hne hall.2.2.1.symm)
    | unsubscribe topic selector =>
      exact (s.topicManager.subscription?_removeSubscriber topic selector fd n t fd' k).resolve_right
        fun hall => hne hall.2.2.1.symm
    | greet => rw [Effect.apply, (greeted_enterSession ..).topicManager_eq]
    | _ => rfl
  · cases e with
    | watch watchId filters =>
      rcases s.watchNotifier.subscribe_cases fd watchId filters with ⟨hrefused, -⟩ | ⟨-, -, hgroups⟩
      · rw [hfits.2] at hrefused
        cases hrefused
      · exact (hgroups key).trans (if_neg (by rintro rfl; exact hne rfl))
    | unwatch watchId =>
      exact (s.watchNotifier.group?_unsubscribe fd watchId key).trans (if_neg (by rintro rfl; exact hne rfl))
    | greet => rw [Effect.apply, (greeted_enterSession ..).watchNotifier_eq]
    | _ => rfl

/-! ### A message of one client -/

/-- Either no client has gone, or more connections have been closed. -/
theorem Nested.kept_or_closed (h : Nested ok s s') :
    (closedSerials s.trace).length ≤ (closedSerials s'.trace).length ∧
      ((∀ fd, s.Alive fd → s'.Alive fd) ∨
        (closedSerials s.trace).length < (closedSerials s'.trace).length) := by
  induction h with
  | refl s => exact ⟨le_rfl, .inl fun _ => id⟩
  | trans _ _ ih ih' =>
    refine ⟨ih.1.trans ih'.1, ?_⟩
    rcases ih.2 with hkept | hmore
    · exact ih'.2.imp (fun hkept' fd hfd => hkept' fd (hkept fd hfd)) ih.1.trans_lt
    · exact .inr (hmore.trans_le ih'.1)
  | touch htouch =>
    have hsame := htouch.closedSerials_eq
    exact ⟨hsame ▸ le_rfl, .inl fun fd => (alive_of_touches htouch).mpr⟩
  | hand _ _ _ _ _ => exact ⟨le_rfl, .inl fun _ => id⟩
  | unwatch _ _ _ => exact ⟨le_rfl, .inl fun _ => id⟩
  | @close s s₁ s₂ fd conn notify _ _ _ _ _ ih ih' =>
    have hdetach := congrArg List.length (closedSerials_detach s fd conn notify)
    have hforget : closedSerials (s₁.forgotten fd conn).trace = closedSerials s₁.trace :=
      congrArg closedSerials (forget_frame s₁ fd conn).2.2.2.2.1
    have hfirst := ih.1
    have hsecond := ih'.1
    rw [hforget] at hsecond
    rw [hdetach, List.length_cons] at hfirst
    exact ⟨by omega, .inr (by omega)⟩

/-- A sequence of changes that each leave the others alone does so as a whole, unless a connection is
    closed on the way. `Q` is what the changes need. -/
theorem Steps.sameForOthers {kinds : Effect → Prop} {Q : App → Prop}
    (hnested : ∀ s s', Nested ok s s' → Q s → Q s')
    (heffect : ∀ s (e : Effect), kinds e → e.Fits fd s → Q s → Q (e.apply fd s) ∧ SameForOthers fd s (e.apply fd s))
    (h : Steps ok kinds fd s s') (hs : Q s) :
    Q s' ∧ (closedSerials s.trace).length ≤ (closedSerials s'.trace).length ∧
      (SameForOthers fd s s' ∨ (closedSerials s.trace).length < (closedSerials s'.trace).length) := by
  induction h with
  | sends h =>
    obtain ⟨hle, hkept⟩ := h.nested.kept_or_closed
    exact ⟨hnested _ _ h.nested hs, hle,
      hkept.imp_left fun hkept => h.nested.shrinks.sameForOthers hkept fd⟩
  | effect e he hfits =>
    obtain ⟨hQ, hsame⟩ := heffect _ e he hfits hs
    exact ⟨hQ, closedSerials_effect e ▸ le_rfl, .inl hsame⟩
  | trans _ _ ih ih' =>
    obtain ⟨hQ, hle, hsame⟩ := ih hs
    obtain ⟨hQ', hle', hsame'⟩ := ih' hQ
    refine ⟨hQ', hle.trans hle', ?_⟩
    rcases hsame with hsame | hmore
    · exact hsame'.imp hsame.trans hle.trans_lt
    · exact .inr (hmore.trans_le hle')

theorem dispatch_sameForOthers (hs : Owned s) {conn : ClientConnection}
    (hconn : s.clients[fd]? = some conn) {msg : ReceivedMessage}
    (hregister : msg.type ≠ register) :
    SameForOthers fd s (s.dispatchMessage fd conn msg) ∨ (closedSerials s.trace).length <
      (closedSerials (s.dispatchMessage fd conn msg).trace).length := by
  -- an unregistration leaves publications without an owner for a while, but publishes nothing
  let Q : App → Prop := fun s => msg.type = unregister ∨ Owned s
  refine ((steps_dispatchMessage s fd msg hconn).sameForOthers (Q := Q)
    (fun _ _ h => Or.imp_right fun howned => howned.of_shrinks h.shrinks)
    (fun s e hkind hfits howned => ⟨?_, ?_⟩) (.inr hs)).2.2
  · by_cases hunregister : msg.type = unregister
    · exact .inl hunregister
    refine .inr (owned_effect e hfits ?_ ?_ (howned.resolve_left hunregister))
    · rintro info rfl
      exact hregister hkind
    · rintro identity rfl
      exact hunregister hkind
  · refine sameForOthers_effect e hfits ?_ ?_ ?_
    · rintro info rfl
      exact hregister hkind
    · rintro name owner rfl
      exact (hkind.resolve_left hregister).2
    · rintro topic info idlHash rfl
      refine howned.resolve_left fun hunregister => ?_
      rw [show msg.type = publishTopic from hkind] at hunregister
      exact absurd hunregister (by decide)

/-- In every reachable state, a message of a client that is no registration leaves the instances,
    publications, topic subscriptions and watches of all other clients as they are, provided that no
    connection is closed while it is handled. A hello takes a session over only by closing. -/
theorem message_leaves_others_alone {s : App} (hreachable : s.Reachable) (fd : Int)
    (msg : ReceivedMessage) (plan : List SendOutcome) (hregister : msg.type ≠ MessageType.register)
    (hnoclose : closedSerials (s.step (.message fd msg, plan)).trace = closedSerials s.trace) :
    SameForOthers fd s (s.step (.message fd msg, plan)) := by
  have hplan : Nested Quiet s { s with plan } := .touch (touches_plan s plan)
  have hsettled := hplan.settled (settled_of_reachable hreachable)
  have hsame := hplan.shrinks.sameForOthers (fun _ => id) fd
  rcases step_cases s (.message fd msg, plan) with hnested | ⟨fd', hevent, -⟩ |
    ⟨fd', msg', conn, hevent, hconn, hmade⟩
  · refine hnested.shrinks.sameForOthers (hnested.kept_or_closed.2.resolve_right ?_) fd
    rw [hnoclose]
    exact lt_irrefl _
  · cases hevent
  · cases hevent
    rw [hmade] at hnoclose ⊢
    refine hsame.trans ((dispatch_sameForOthers hsettled.owned hconn hregister).resolve_right ?_)
    rw [hnoclose]
    exact lt_irrefl _

theorem unregister_leaves_other_instance_alone :
    let s := (App.init 0 7).run
      [(.accept 4, []), (.message 4 (helloMessage 10 (ascii "a") 1), []),
        (.message 4 (registerMessage (ascii "S")), []), (.accept 5, []),
        (.message 5 (helloMessage 11 (ascii "b") 1), []),
        (.message 5 (registerMessage (ascii "T")), [])]
    let unregister := clientMessage MessageType.unregister 3 (·.writeString .succeeds (ascii "T"))
    s.registered (ascii "S") [] = true ∧ s.registered (ascii "T") [] = true ∧
      (s.step (.message 5 unregister, [])).registered (ascii "T") [] = false ∧
      SameForOthers 5 s (s.step (.message 5 unregister, [])) := by
  refine ⟨by decide +kernel, by decide +kernel, by decide +kernel, ?_⟩
  exact message_leaves_others_alone ⟨_, _, _, rfl⟩ 5 _ [] (by decide +kernel) (by decide +kernel)

end OmniBinder.ServiceManager
