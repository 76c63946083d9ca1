/-
Module: OmniBinder.Proofs.SmTopics
Purpose: Subscribers hear of the publishers they asked for.
Trusted boundary: none
Main exports: Portable, matching_publishers_announced
-/
import OmniBinder.Proofs.RecordRoundTrip
import OmniBinder.Proofs.SmCleanup

namespace OmniBinder.ServiceManager

open List Effect TopicManager TopicTables

variable {topic : Bytes} {fd : Int} {out : Outgoing} {idlHash : UInt32} {trace : List TraceEntry}
  {pending : Int → Bytes → TopicSubscriptionFilter → PublisherSlot → Prop}

/-! ### Every announcement can be written -/

/-- What is stored of services came in messages and can be sent on. -/
structure Portable (s : App) : Prop where
  entry : ∀ n k entry, s.registry.findEntry n k = some entry → Received entry.info
  slot : ∀ n t i slot, s.topicManager.slot? n t i = some slot →
    slot.info.Countable ∧ slot.info.wireSize ≤ 2 * maxMessageSize ∧ t.length ≤ maxTopicNameLength

variable {info : ServiceInfo}

theorem topicPublisherNotify_message (hcount : info.Countable)
    (hsize : info.wireSize ≤ 2 * maxMessageSize) (htopic : topic.length ≤ maxTopicNameLength)
    (idlHash sequence : UInt32) :
    (Outgoing.topicPublisherNotify topic info idlHash).message sequence ≠ none := by
  have hroom : stringSize topic + (info.wireSize + 4) ≤ uint32Max := by
    simp only [stringSize, uint32Max, maxMessageSize, maxTopicNameLength] at *
    omega
  obtain ⟨buf, hwrote, hclear, hpos⟩ := (emits_writeString topic).fills (forall_mem_nil _)
    (rfl : Buffer.init.writeFailed = false) (by
      rw [length_layout_text]
      exact le_trans (by simp [Buffer.init]) hroom)
  have hemits := Emits.cons (emits_serializeServiceInfo info)
    (Emits.single (emits_writeUint32 idlHash))
  obtain ⟨buf', hwrote', -, -⟩ := hemits.fills (by simpa [Layout.join, Layout.fixed] using hcount.counts)
    hclear (by
      rw [hpos, length_layout_text]
      simpa [Buffer.init, Layout.join, Layout.fixed, info.length_layout, Nat.add_assoc] using hroom)
  simp only [Outgoing.message, Outgoing.payload, Outgoing.checkedAfter, Outgoing.unchecked,
    foldl_cons, foldl_nil, hwrote, hwrote']
  exact Option.some_ne_none _

theorem publishedInfo_bounds {parsed : ServiceInfo} {entry : ServiceEntry} (hparsed : Received parsed)
    (hentry : Received entry.info) : (App.publishedInfo parsed entry).Countable ∧
      (App.publishedInfo parsed entry).wireSize ≤ 2 * maxMessageSize := by
  refine ⟨hparsed.1, ?_⟩
  have h := hparsed.2
  have h' := hentry.2
  simp only [ServiceInfo.wireSize, App.publishedInfo] at *
  omega

variable {s s' : App}

theorem Portable.of_shrinks (h : Portable s) (hs : Shrinks s s') : Portable s' where
  entry := fun n k entry hentry => h.entry n k entry ((hs.registry n k entry).mp hentry).1
  slot := fun n t i slot hslot => h.slot n t i slot ((hs.slot n t i slot).mp hslot).1

theorem portable_effect (e : Effect) (hfits : e.Fits fd s) (hs : Portable s) :
    Portable (e.apply fd s) where
  entry := fun n k entry hentry => by
    rcases findEntry_effect e hfits hentry with ⟨info, rfl, -, -, -, hinfo⟩ | hold
    · rw [hinfo]
      exact hfits.2.2
    · exact hs.entry n k entry hold
  slot := fun n t i slot hslot => by
    rcases slot?_effect e hfits hslot with ⟨topic, info, idlHash, rfl, -, rfl, -, rfl⟩ | ⟨-, hold⟩
    · obtain ⟨-, hok, entry, parsed, -, hentry, hparsed, rfl⟩ := hfits
      obtain ⟨hcount, hsize⟩ := publishedInfo_bounds hparsed (hs.entry _ _ _ hentry)
      refine ⟨hcount, hsize, ?_⟩
      rcases s.topicManager.registerPublisher_cases topic (App.publishedInfo parsed entry) fd
        idlHash with ⟨hrefused, -⟩ | ⟨-, -, hlength, -⟩
      · exact absurd hok (hrefused ▸ Bool.false_ne_true)
      · exact hlength
    · exact hs.slot n t i slot hold

theorem portable_step (event : Event × List SendOutcome) (hs : Portable s) :
    Portable (s.step event) := by
  refine step_invariant (fun _ _ h hs => hs.of_shrinks h.shrinks) (fun s s' fd _ h hs => ?_)
    (fun _ _ e => portable_effect e) event hs
  refine ⟨fun n k entry hentry => ?_, fun n t i slot hslot => ?_⟩
  · exact hs.entry n k entry (h.registry_eq ▸ hentry)
  · exact hs.slot n t i slot (h.topicManager_eq ▸ hslot)

/-! ### What was handed over -/

/-- A message was handed to a connection, and since then nothing was stored. -/
def HandedLately (fd : Int) (out : Outgoing) (trace : List TraceEntry) : Prop :=
  ∃ newer older sequence, trace = newer ++ .handed fd sequence out :: older ∧
    ∀ entry ∈ newer, entry.Passing

theorem HandedLately.of_shrinks (h : HandedLately fd out s.trace)
    (hs : Shrinks s s') : HandedLately fd out s'.trace := by
  obtain ⟨newer, older, sequence, htrace, hnewer⟩ := h
  obtain ⟨new, htrace', hnew⟩ := hs.trace
  refine ⟨new ++ newer, older, sequence, by rw [htrace', htrace, append_assoc], ?_⟩
  exact fun entry hentry => (mem_append.mp hentry).elim (hnew entry) (hnewer entry)

/-- A subscriber that is still there after an announcement to it was handed that announcement. -/
theorem handed_sendTopicPublisherNotify
    (hout : ∀ sequence, (Outgoing.topicPublisherNotify topic info idlHash).message sequence ≠ none)
    (halive : (s.sendTopicPublisherNotify fd topic info idlHash).Alive fd) :
    HandedLately fd (.topicPublisherNotify topic info idlHash)
      (s.sendTopicPublisherNotify fd topic info idlHash).trace := by
  have hbefore := (sends_topicPublisherNotify quiet_of_unprompted s fd topic info
    idlHash).nested.shrinks.alive halive
  unfold App.sendTopicPublisherNotify at halive ⊢
  rw [if_pos (App.contains_iff.mpr hbefore)] at halive ⊢
  obtain ⟨sequence, s', -, htouch⟩ := sendProactive_alive
    (closes_closeFailed quiet_of_unprompted s.clients.size) le_rfl hout halive
  refine HandedLately.of_shrinks ?_ htouch.shrinks
  exact ⟨[], s'.trace, sequence, rfl, nofun⟩

/-- In a loop, what one turn hands over has been handed over at the end. -/
theorem handed_foldl {α : Type} (step : App → α → App) (xs : List α)
    (hnested : ∀ x s, Nested Quiet s (step s x)) {x : α} (hx : x ∈ xs)
    (hhands : ∀ s, (step s x).Alive fd → HandedLately fd out (step s x).trace)
    (halive : (xs.foldl step s).Alive fd) : HandedLately fd out (xs.foldl step s).trace := by
  induction xs generalizing s with
  | nil => cases hx
  | cons first xs ih =>
    rcases mem_cons.mp hx with rfl | hlater
    · have hrest := (nested_foldl step xs (s := step s x) le_rfl fun y _ s' _ _ => hnested y s').shrinks
      exact (hhands s (hrest.alive halive)).of_shrinks hrest
    · exact ih hlater halive

/-! ### Announced pairs -/

variable {selector : TopicSubscriptionFilter} {slot : PublisherSlot}

theorem HandedLately.announced
    (h : HandedLately fd (.topicPublisherNotify topic slot.info slot.idlHash) trace) :
    Announced fd topic selector slot trace := by
  obtain ⟨newer, older, sequence, htrace, hnewer⟩ := h
  exact ⟨newer, older, sequence, htrace, fun hmem => hnewer _ hmem, fun hmem => hnewer _ hmem⟩

theorem Announced.append (h : Announced fd topic selector slot trace)
    (new : List TraceEntry)
    (hsubscribed : .topicSubscribed fd selector.publisherService topic selector.key ∉ new)
    (hpublished : .topicPublished slot.info.name topic slot.info.instanceId ∉ new) :
    Announced fd topic selector slot (new ++ trace) := by
  obtain ⟨newer, older, sequence, htrace, hnosub, hnopub⟩ := h
  refine ⟨new ++ newer, older, sequence, by rw [htrace, append_assoc], ?_, ?_⟩
  · exact fun hmem => (mem_append.mp hmem).elim hsubscribed hnosub
  · exact fun hmem => (mem_append.mp hmem).elim hpublished hnopub

/-- Every stored pair of a client's subscription and a publisher that matches it was announced, but for
    those that are being announced. -/
def CompleteBut (pending : Int → Bytes → TopicSubscriptionFilter → PublisherSlot → Prop) (s : App) :
    Prop :=
  ∀ n t fd k selector n' i slot, s.topicManager.subscription? n t fd k = some selector →
    s.topicManager.slot? n' t i = some slot → selector.matches slot.info = true → s.Alive fd →
    ¬ pending fd t selector slot → Announced fd t selector slot s.trace

abbrev Complete (s : App) : Prop := CompleteBut (fun _ _ _ _ => False) s

theorem CompleteBut.of_shrinks (h : CompleteBut pending s) (hs : Shrinks s s') :
    CompleteBut pending s' := by
  intro n t fd k selector n' i slot hsubscription hslot hmatch halive hpending
  have hbefore := h n t fd k selector n' i slot ((hs.subscription n t fd k selector).mp hsubscription).1
    ((hs.slot n' t i slot).mp hslot).1 hmatch (hs.alive halive) hpending
  obtain ⟨new, htrace, hnew⟩ := hs.trace
  rw [htrace]
  exact hbefore.append new (fun hmem => hnew _ hmem) fun hmem => hnew _ hmem

/-- Changes that bring neither a subscriber nor a publisher. -/
theorem complete_effect (e : Effect) (hfits : e.Fits fd s)
    (hpublish : ∀ topic info idlHash, e ≠ .publish topic info idlHash)
    (hsubscribe : ∀ topic selector, e ≠ .subscribe topic selector) (hs : Complete s) :
    Complete (e.apply fd s) := by
  intro n t fd' k selector n' i slot hsubscription hslot hmatch halive hpending
  have hold : s.topicManager.slot? n' t i = some slot := by
    rcases slot?_effect e hfits hslot with ⟨topic, info, idlHash, he, -⟩ | ⟨-, hold⟩
    · exact absurd he (hpublish topic info idlHash)
    · exact hold
  have hbefore := hs n t fd' k selector n' i slot (subscription?_effect e hsubscribe hsubscription)
    hold hmatch ((alive_effect e hfits fd').mp halive) hpending
  obtain ⟨new, htrace, hnew⟩ := trace_effect s fd e
  rw [htrace]
  refine hbefore.append new (fun hmem => ?_) fun hmem => ?_
  · obtain ⟨selector, he, -⟩ := records_topicSubscribed (hnew _ hmem)
    exact hsubscribe t selector he
  · obtain ⟨info, idlHash, he, -⟩ := records_topicPublished (hnew _ hmem)
    exact hpublish t info idlHash he

/-! ### Publishing -/

/-- The pairs of one publisher are to be announced, the others are as they were. -/
theorem complete_publish
    (hfits : (publish topic info idlHash).Fits fd s) (hs : Complete s) :
    CompleteBut (fun _ t _ slot => t = topic ∧ slot = ⟨fd, info, idlHash⟩)
      ((publish topic info idlHash).apply fd s) := by
  intro n t fd' k selector n' i slot hsubscription hslot hmatch halive hpending
  have hstored := subscription?_effect _ (fun _ _ he => by cases he) hsubscription
  obtain ⟨hname, hinstance⟩ := (indexed _).slot_named hslot
  rcases slot?_effect _ hfits hslot with ⟨_, _, _, he, -, htopic, -, hnew⟩ | ⟨hother, hold⟩
  · cases he
    exact absurd ⟨htopic.symm, hnew⟩ hpending
  have hbefore := hs n t fd' k selector n' i slot hstored hold hmatch
    ((alive_effect _ hfits fd').mp halive) not_false
  refine hbefore.append [.topicPublished info.name topic info.instanceId] (fun hmem => ?_)
    fun hmem => ?_
  · cases mem_singleton.mp hmem
  · obtain ⟨hsame, rfl, hsame'⟩ := TraceEntry.topicPublished.inj (mem_singleton.mp hmem)
    exact hother info idlHash rfl ⟨hsame.symm.trans hname, hsame'.symm.trans hinstance⟩

/-- When the pending pairs have been announced, all have. -/
theorem CompleteBut.all (h : CompleteBut pending s)
    (hdone : ∀ n t fd k selector n' i slot, s.topicManager.subscription? n t fd k = some selector →
      s.topicManager.slot? n' t i = some slot → selector.matches slot.info = true → s.Alive fd →
      pending fd t selector slot →
      HandedLately fd (.topicPublisherNotify t slot.info slot.idlHash) s.trace) : Complete s := by
  intro n t fd k selector n' i slot hsubscription hslot hmatch halive _
  by_cases hpending : pending fd t selector slot
  · exact (hdone n t fd k selector n' i slot hsubscription hslot hmatch halive hpending).announced
  · exact h n t fd k selector n' i slot hsubscription hslot hmatch halive hpending

theorem complete_handlePublishTopic (halive : s.Alive fd) (hportable : Portable s)
    (hs : Complete s) (msg : ReceivedMessage) : Complete (s.handlePublishTopic fd msg) := by
  rcases handlePublishTopic_cases s fd msg halive with
    hrefused | ⟨topic, info, parsed, idlHash, owner, -, -, -, hfits, hmade⟩
  · rw [hrefused]
    exact hs.of_shrinks (sends_boolReply (fun _ _ => id) s fd _ _ _).nested.shrinks
  rw [hmade]
  set s₁ := ((publish topic info idlHash).apply fd s).sendBoolReply fd
    MessageType.publishTopicReply msg.sequence true
  have hreply : Shrinks ((publish topic info idlHash).apply fd s) s₁ :=
    (sends_boolReply (fun _ _ => id) _ fd _ _ _).nested.shrinks
  have hnotify := fun (subscriber : Int) (s : App) =>
    (sends_topicPublisherNotify quiet_of_unprompted s subscriber topic info idlHash).nested
  have hloop := (nested_foldl (fun s subscriber =>
      s.sendTopicPublisherNotify subscriber topic info idlHash)
    (s₁.topicManager.getMatchingSubscribers topic info) (s := s₁) le_rfl
    fun subscriber _ s' _ _ => hnotify subscriber s').shrinks
  have hportable₁ := (portable_effect _ hfits hportable).of_shrinks hreply
  refine (((complete_publish hfits hs).of_shrinks hreply).of_shrinks hloop).all ?_
  rintro n t subscriber k selector n' i slot hsubscription hslot hmatch hsubscriber ⟨rfl, rfl⟩
  -- who is subscribed at the end was so when the subscribers were looked up
  have hlisted : subscriber ∈ s₁.topicManager.getMatchingSubscribers t info :=
    (mem_getMatchingSubscribers (indexed _).keyed).mpr
      ⟨n, k, selector, ((hloop.subscription n t subscriber k selector).mp hsubscription).1, hmatch⟩
  obtain ⟨hcount, hsize, hlength⟩ := hportable₁.slot n' t i _ ((hloop.slot n' t i _).mp hslot).1
  exact handed_foldl _ _ hnotify hlisted (fun s' halive' => handed_sendTopicPublisherNotify
    (topicPublisherNotify_message hcount hsize hlength idlHash) halive') hsubscriber

/-! ### Subscribing -/

/-- The pairs of one subscription are to be announced, the others are as they were. -/
theorem complete_subscribe (hfits : (subscribe topic selector).Fits fd s) (hs : Complete s) :
    CompleteBut (fun fd' t selector' _ => fd' = fd ∧ t = topic ∧ selector' = selector)
      ((subscribe topic selector).apply fd s) := by
  intro n t fd' k selector' n' i slot hsubscription hslot hmatch halive hpending
  have hold := (s.topicManager.slot?_addSubscriber topic selector fd n' t i).symm.trans hslot
  obtain ⟨hservice, hkey⟩ := (indexed _).subscription_named hsubscription
  have halive := (alive_effect _ hfits fd').mp halive
  simp only [apply] at hsubscription ⊢
  rcases s.topicManager.addSubscriber_cases topic selector fd with ⟨hrefused, hsame⟩ | ⟨hadded, -, hstored⟩
  · rw [hrefused, if_neg Bool.false_ne_true]
    exact hs n t fd' k selector' n' i slot ((hsame n t fd' k).symm.trans hsubscription) hold hmatch
      halive not_false
  · rw [hadded, if_pos rfl]
    have hfound := (hstored n t fd' k).symm.trans hsubscription
    split_ifs at hfound with hnew
    · exact absurd ⟨hnew.2.2.1.symm, hnew.2.1.symm, (Option.some.inj hfound).symm⟩ hpending
    have hbefore := hs n t fd' k selector' n' i slot hfound hold hmatch halive not_false
    refine hbefore.append [.topicSubscribed fd selector.publisherService topic selector.key]
      (fun hmem => hnew ?_) fun hmem => ?_
    · obtain ⟨hfd, hsame, htopic, hsame'⟩ :=
        TraceEntry.topicSubscribed.inj (mem_singleton.mp hmem)
      exact ⟨hsame.symm.trans hservice, htopic.symm, hfd.symm, hsame'.symm.trans hkey⟩
    · cases mem_singleton.mp hmem

theorem complete_handleSubscribeTopic (halive : s.Alive fd) (hportable : Portable s)
    (hs : Complete s) (msg : ReceivedMessage) : Complete (s.handleSubscribeTopic fd msg) := by
  rcases handleSubscribeTopic_cases s fd msg with
    hrefused | ⟨topic, selector, added, idlHash, -, hmade⟩
  · rw [hrefused]
    exact hs.of_shrinks (sends_reply (fun _ _ => id) s fd _ _ rfl).nested.shrinks
  have hfits : (subscribe topic selector).Fits fd s := halive
  rw [hmade]
  set s₁ := ((subscribe topic selector).apply fd s).sendMessage App.closeFailed fd msg.sequence
    (.subscribeTopicReply added idlHash)
  have hreply : Shrinks ((subscribe topic selector).apply fd s) s₁ :=
    (sends_reply (fun _ _ => id) _ fd _ _ rfl).nested.shrinks
  let tell := fun (s : App) (view : TopicPublisherView) =>
    s.sendTopicPublisherNotify fd topic view.info view.idlHash
  have hnotify : ∀ view s', Nested Quiet s' (tell s' view) := fun view s' =>
    (sends_topicPublisherNotify quiet_of_unprompted s' fd topic view.info view.idlHash).nested
  have hloop := (nested_foldl tell (s₁.topicManager.getMatchingPublishers topic selector) (s := s₁)
    le_rfl fun view _ s' _ _ => hnotify view s').shrinks
  have hportable₁ := (portable_effect _ hfits hportable).of_shrinks hreply
  refine (((complete_subscribe hfits hs).of_shrinks hreply).of_shrinks hloop).all ?_
  rintro n t fd' k selector' n' i slot - hslot hmatch hsubscriber ⟨rfl, rfl, rfl⟩
  have hslot₁ := ((hloop.slot n' t i slot).mp hslot).1
  have hlisted : (⟨slot.info, slot.idlHash⟩ : TopicPublisherView) ∈
      s₁.topicManager.getMatchingPublishers t selector' :=
    (mem_getMatchingPublishers (indexed _)).mpr ⟨n', i, slot, hslot₁, hmatch, rfl⟩
  obtain ⟨hcount, hsize, hlength⟩ := hportable₁.slot n' t i slot hslot₁
  have hhands : ∀ s' : App, (s'.sendTopicPublisherNotify fd' t slot.info slot.idlHash).Alive fd' →
      HandedLately fd' (.topicPublisherNotify t slot.info slot.idlHash)
        (s'.sendTopicPublisherNotify fd' t slot.info slot.idlHash).trace := fun s' =>
    handed_sendTopicPublisherNotify (topicPublisherNotify_message hcount hsize hlength slot.idlHash)
  exact handed_foldl tell _ hnotify hlisted hhands hsubscriber

/-! ### Runs -/

theorem complete_step (event : Event × List SendOutcome) (hclean : Clean s) (hportable : Portable s)
    (hs : Complete s) : Complete (s.step event) := by
  rcases step_cases s event with
    hnested | ⟨fd, -, hdead, haccepted⟩ | ⟨fd, msg, conn, -, hconn, hmade⟩
  · exact hs.of_shrinks hnested.shrinks
  · intro n t fd' k selector n' i slot hsubscription hslot hmatch _ hpending
    rw [haccepted.topicManager_eq] at hsubscription hslot
    have halive : s.Alive fd' := hclean.alive fd' (mentions_iff.mpr
      (.inr (.inl (mentions_of_subscription hsubscription))))
    have hbefore := hs n t fd' k selector n' i slot hsubscription hslot hmatch halive hpending
    rw [haccepted.trace_eq]
    exact hbefore.append [.accepted fd s.nextSerial]
      (fun hmem => by cases mem_singleton.mp hmem) fun hmem => by cases mem_singleton.mp hmem
  · have hplan := (touches_plan s event.2).shrinks
    have halive : App.Alive { s with plan := event.2 } fd := ⟨conn, hconn⟩
    rw [hmade]
    by_cases hpublish : msg.type = MessageType.publishTopic
    · rw [dispatchMessage_publishTopic hpublish]
      exact complete_handlePublishTopic halive (hportable.of_shrinks hplan) (hs.of_shrinks hplan) msg
    by_cases hsubscribe : msg.type = MessageType.subscribeTopic
    · rw [dispatchMessage_subscribeTopic hsubscribe]
      exact complete_handleSubscribeTopic halive (hportable.of_shrinks hplan) (hs.of_shrinks hplan) msg
    refine (steps_dispatchMessage { s with plan := event.2 } fd msg hconn).invariant
      (fun _ _ h hs => hs.of_shrinks h.shrinks)
      (fun _ e hkind hfits => complete_effect e hfits ?_ ?_) (hs.of_shrinks hplan)
    · rintro topic info idlHash rfl
      exact hpublish hkind
    · rintro topic selector rfl
      exact hsubscribe hkind

/-- Everything the announcements rest on. -/
structure Announcing (s : App) : Prop where
  clean : Clean s
  portable : Portable s
  complete : Complete s

theorem announcing_of_reachable (h : s.Reachable) : Announcing s := by
  refine h.invariant (fun _ _ => ?_) fun event hs => ⟨clean_step event hs.clean,
    portable_step event hs.portable, complete_step event hs.clean hs.portable hs.complete⟩
  refine ⟨clean_init _ _, ⟨fun n k entry hentry => ?_, fun n t i slot hslot => ?_⟩,
    fun n t fd k selector n' i slot hsubscription => ?_⟩
  · simp [App.init] at hentry
  · simp [App.init] at hslot
  · simp [App.init] at hsubscription

/-- In every run, whenever a subscription and a publisher that it matches are both stored, the publisher
    was announced to the subscriber after both were stored as they are. The two scans that the
    announcements rest on find the matching publishers and the matching subscribers. -/
theorem matching_publishers_announced (heartbeatTimeoutMs smIncarnationId : UInt32)
    (events : List (Event × List SendOutcome)) :
    let s := (App.init heartbeatTimeoutMs smIncarnationId).run events
    (∀ n topic fd k selector n' i slot,
      s.topicManager.subscription? n topic fd k = some selector →
      s.topicManager.slot? n' topic i = some slot → selector.matches slot.info = true →
      Announced fd topic selector slot s.trace) ∧
    (∀ topic selector view, view ∈ s.topicManager.getMatchingPublishers topic selector ↔
      ∃ n i slot, s.topicManager.slot? n topic i = some slot ∧ selector.matches slot.info = true ∧
        view = ⟨slot.info, slot.idlHash⟩) ∧
    ∀ topic info fd, fd ∈ s.topicManager.getMatchingSubscribers topic info ↔
      ∃ n k selector, s.topicManager.subscription? n topic fd k = some selector ∧
        selector.matches info = true := by
  intro s
  have hs : Announcing s := announcing_of_reachable ⟨_, _, events, rfl⟩
  refine ⟨fun n topic fd k selector n' i slot hsubscription hslot hmatch => ?_,
    fun _ _ _ => mem_getMatchingPublishers (indexed _),
    fun _ _ _ => mem_getMatchingSubscribers (indexed _).keyed⟩
  have halive : s.Alive fd := hs.clean.alive fd (mentions_iff.mpr
    (.inr (.inl (mentions_of_subscription hsubscription))))
  exact hs.complete n topic fd k selector n' i slot hsubscription hslot hmatch halive not_false

end OmniBinder.ServiceManager
