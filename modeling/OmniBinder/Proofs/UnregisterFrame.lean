/-
Module: OmniBinder.Proofs.UnregisterFrame
Purpose: What unregistering a service does to the topics of the other services of a runtime. Its own
  clients are forgotten everywhere. Which callbacks a broadcast of a service reaches.
Trusted boundary: none
Main exports: LocalServices.WellFormed, TopicNetwork.Addressed
-/
import OmniBinder.Runtime.LocalServices
import OmniBinder.Proofs.TopicRuntimeSpec
import OmniBinder.Lib.Machine

namespace OmniBinder.LocalServices

open List Option Table TopicRuntime

variable {s' : LocalServices}

/-- A service is registered under its own name, and no client of a service is entered as that of
    another. -/
structure WellFormed (s : LocalServices) : Prop where
  topics : s.topicRuntime.WellFormed
  named : ∀ (name : Bytes) (entry : LocalServiceEntry), s.localServices[name]? = some entry →
    entry.info.name = name
  clients : ∀ (name other : Bytes) (entry : LocalServiceEntry) (clientId : Int),
    s.localServices[name]? = some entry → entry.clients.contains clientId = true →
      s.clientIdToService[clientId]? = some other → other = name

theorem wellFormed_init : init.WellFormed where
  topics := TopicRuntime.wellFormed_init
  named _ _ h := by cases h
  clients _ _ _ _ h := by cases h

variable {s : LocalServices}

/-! ### Forgetting the clients of a service -/

theorem topics_dropSubscriber (h : s.topicRuntime.WellFormed) (name : Bytes) (clientId : Int) :
    (s.dropSubscriber name clientId).topicRuntime.WellFormed :=
  (h.step (.removeTcpSubscriberFd clientId)).step (.removeShmSubscriberService name _)

/-- What is left when clients have been forgotten. -/
structure Dropped (s s' : LocalServices) (name : Bytes) (clientIds : List Int) : Prop where
  topics : s'.topicRuntime.WellFormed
  services : s'.localServices = s.localServices
  numbers : ∀ clientId : Int, s'.clientIdToService[clientId]? =
    if clientId ∈ clientIds then none else s.clientIdToService[clientId]?
  published : ∀ id, (s'.topicRuntime.topic id).published = (s.topicRuntime.topic id).published
  tcp : ∀ id, (s'.topicRuntime.topic id).tcpSubscribers =
    (s.topicRuntime.topic id).tcpSubscribers.filter (· ∉ clientIds)
  shm : ∀ id, (s'.topicRuntime.topic id).shmSubscribers =
    (s.topicRuntime.topic id).shmSubscribers.filter fun sub =>
      ¬ (sub.serviceName = name ∧ sub.clientId ∈ clientIds.map UInt32.ofInt)
  owned : ∀ owner id, s'.topicRuntime.OwnedBy owner id ↔ s.topicRuntime.OwnedBy owner id

theorem dropped_dropSubscriber (h : s.topicRuntime.WellFormed) (name : Bytes) (clientId : Int) :
    Dropped s (s.dropSubscriber name clientId) name [clientId] := by
  have htcp := h.step (.removeTcpSubscriberFd clientId)
  have htopic : ∀ id, (s.dropSubscriber name clientId).topicRuntime.topic id = _ := fun id =>
    topic_forEachTopic (s.topicRuntime.removeTcpSubscriberFd clientId) _ rfl id
  have htopic' : ∀ id, (s.topicRuntime.removeTcpSubscriberFd clientId).topic id = _ := fun id =>
    topic_forEachTopic s.topicRuntime _ rfl id
  refine ⟨topics_dropSubscriber h name clientId, rfl, fun c => ?_, fun id => ?_, fun id => ?_,
    fun id => ?_, fun owner id => ?_⟩
  · refine (getElem?_erase _ _ _).trans ?_
    by_cases hc : clientId = c
    · simp [hc]
    · simp [hc, Ne.symm hc]
  · simp only [htopic, htopic', TopicRuntime.TopicState.settle_kept]
  · simp only [htopic, htopic', TopicRuntime.TopicState.settle_kept]
    refine filter_congr fun c _ => ?_
    simp
  · simp only [htopic, htopic', TopicRuntime.TopicState.settle_kept]
    refine filter_congr fun sub _ => ?_
    cases sub
    simp
  · exact (htcp.ownedBy_forEachTopic (changesSubscribers_shm _)).trans
      (h.ownedBy_forEachTopic (changesSubscribers_tcp _))

theorem dropped_foldl (h : s.topicRuntime.WellFormed) (name : Bytes) (clientIds : List Int) :
    Dropped s (clientIds.foldl (fun s clientId => s.dropSubscriber name clientId) s) name
      clientIds := by
  induction clientIds generalizing s with
  | nil =>
    refine ⟨h, rfl, fun _ => by simp, fun _ => rfl, fun _ => ?_, fun _ => ?_, fun _ _ => Iff.rfl⟩
    · simp
    · simp
  | cons clientId clientIds ih =>
    have hfirst := dropped_dropSubscriber h name clientId
    have hrest := ih hfirst.topics
    refine ⟨hrest.topics, hrest.services.trans hfirst.services, fun c => ?_, fun id => ?_,
      fun id => ?_, fun id => ?_, fun owner id => ?_⟩
    · rw [foldl_cons, hrest.numbers, hfirst.numbers]
      by_cases hc : c = clientId <;> by_cases hcs : c ∈ clientIds <;> simp [hc, hcs]
    · exact (hrest.published id).trans (hfirst.published id)
    · rw [foldl_cons, hrest.tcp, hfirst.tcp, List.filter_filter]
      refine filter_congr fun c _ => ?_
      by_cases hc : c = clientId <;> by_cases hcs : c ∈ clientIds <;> simp [hc, hcs]
    · rw [foldl_cons, hrest.shm, hfirst.shm, List.filter_filter]
      refine filter_congr fun sub _ => ?_
      by_cases hname : sub.serviceName = name
      · by_cases hc : sub.clientId = UInt32.ofInt clientId <;>
          by_cases hcs : sub.clientId ∈ clientIds.map UInt32.ofInt <;> simp_all
      · simp [hname]
    · exact (hrest.owned owner id).trans (hfirst.owned owner id)

/-! ### Unregistering a service -/

section
variable {name : Bytes} {entry : LocalServiceEntry}

/-- The state before the publications of the service are taken back. -/
theorem dropped_detach (h : s.WellFormed) (entry : LocalServiceEntry) (name : Bytes) :
    Dropped { s with localServices := s.localServices.erase name }
      ({ s with localServices := s.localServices.erase name }.detachClientsFromEntry name entry) name
      entry.clients.keys := by
  refine dropped_foldl ?_ name entry.clients.keys
  exact h.topics

theorem mem_clientKeys {entry : LocalServiceEntry} {clientId : Int} :
    clientId ∈ entry.clients.keys ↔ entry.clients.contains clientId = true := by
  rw [Std.TreeMap.mem_keys, Std.TreeMap.contains_iff_mem]

theorem tcpTarget_eq (s : LocalServices) (clientId : Int) :
    s.tcpTarget clientId = (s.clientIdToService[clientId]?).bind fun name =>
      (s.localServices[name]?).bind fun entry =>
        if entry.clients.contains clientId then some ⟨name, clientId⟩ else none := rfl

theorem shmTarget_eq (s : LocalServices) (subscriber : ShmSubscriber) :
    s.shmTarget subscriber = (s.localServices[subscriber.serviceName]?).bind fun entry =>
      if entry.clients.contains subscriber.clientId.toInt32.toInt then
        some ⟨subscriber.serviceName, subscriber.clientId.toInt32.toInt⟩
      else none := rfl

/-- A broadcast reaches the same TCP subscribers, but for those of the service. -/
theorem tcpTargets_detach (h : s.WellFormed) (hentry : s.localServices[name]? = some entry)
    (hdropped : Dropped { s with localServices := s.localServices.erase name } s' name
      entry.clients.keys) (clientId : Int) :
    (if clientId ∈ entry.clients.keys then none else s'.tcpTarget clientId) =
      (s.tcpTarget clientId).filter (·.serviceName ≠ name) := by
  by_cases hclient : clientId ∈ entry.clients.keys
  · -- a client of the service itself
    rw [if_pos hclient, tcpTarget_eq]
    cases hnumber : s.clientIdToService[clientId]? with
    | none => rfl
    | some other =>
      obtain rfl := h.clients name other entry clientId hentry (mem_clientKeys.1 hclient) hnumber
      rw [bind_some, hentry, bind_some, if_pos (mem_clientKeys.1 hclient)]
      simp [Option.filter]
  · rw [if_neg hclient]
    rw [tcpTarget_eq, tcpTarget_eq, hdropped.numbers, if_neg hclient, hdropped.services]
    cases hnumber : s.clientIdToService[clientId]? with
    | none => rfl
    | some other =>
      rw [bind_some, bind_some, getElem?_erase]
      by_cases hother : name = other
      · subst hother
        have hcontains : entry.clients.contains clientId = false := by
          rw [Bool.eq_false_iff]
          exact fun h => hclient (mem_clientKeys.2 h)
        rw [if_pos rfl, hentry, bind_some, hcontains]
        rfl
      · rw [if_neg hother]
        cases hthere : s.localServices[other]? with
        | none => rfl
        | some found =>
          rw [bind_some]
          split_ifs
          · simp [Option.filter, Ne.symm hother]
          · rfl

/-- And the same subscribers over shared memory. -/
theorem shmTargets_detach
    (hdropped : Dropped { s with localServices := s.localServices.erase name } s' name
      entry.clients.keys) (subscriber : ShmSubscriber) :
    s'.shmTarget subscriber = (s.shmTarget subscriber).filter (·.serviceName ≠ name) := by
  rw [shmTarget_eq, shmTarget_eq, hdropped.services, getElem?_erase]
  by_cases hname : name = subscriber.serviceName
  · rw [if_pos hname]
    cases s.localServices[subscriber.serviceName]? with
    | none => rfl
    | some found =>
      rw [bind_some]
      split_ifs <;> simp [Option.filter, hname]
  · rw [if_neg hname]
    cases s.localServices[subscriber.serviceName]? with
    | none => rfl
    | some found =>
      rw [bind_some]
      split_ifs
      · simp [Option.filter, Ne.symm hname]
      · rfl

end

theorem filterMap_filter_target {α : Type} (l : List α) (f f' : α → Option BroadcastTarget)
    (keep : α → Bool) (p : BroadcastTarget → Bool)
    (h : ∀ a ∈ l, (if keep a then f' a else none) = (f a).filter p) :
    (l.filter keep).filterMap f' = (l.filterMap f).filter p := by
  rw [filterMap_filter, filter_filterMap]
  exact filterMap_congr fun a ha => h a ha

/-- Unregistering a service leaves a topic published as it was, with all subscribers of a later broadcast
    but its own clients, exactly if the topic is not recorded as published by that service. -/
theorem unregister_keeps_topic_iff (s : LocalServices) (hs : s.WellFormed) (name : Bytes)
    (hregistered : s.localServices.contains name = true) (id : UInt32) :
    let s' := s.unregisterService name
    ((s'.topicRuntime.topic id).published = (s.topicRuntime.topic id).published ∧
        s'.broadcastTargets id = (s.broadcastTargets id).filter (·.serviceName ≠ name)) ↔
      ¬ s.topicRuntime.OwnedBy name id := by
  intro s'
  obtain ⟨entry, hentry⟩ : ∃ entry, s.localServices[name]? = some entry := by
    rw [Std.TreeMap.contains_eq_isSome_getElem?] at hregistered
    exact isSome_iff_exists.1 hregistered
  have hdropped := dropped_detach hs entry name
  set d := { s with localServices := s.localServices.erase name }.detachClientsFromEntry name entry
  have hs' : s' = d.mapTopics fun t => t.forgetPublishedTopicsByOwner name := by
    simp only [s', unregisterService, hentry, d]
  have htopic : s'.topicRuntime.topic id =
      if s.topicRuntime.OwnedBy name id then (d.topicRuntime.topic id).unpublished
      else d.topicRuntime.topic id := by
    rw [hs']
    refine (hdropped.topics.topic_forgetPublishedTopicsByOwner name id).trans ?_
    exact if_congr (hdropped.owned name id) rfl rfl
  by_cases howned : s.topicRuntime.OwnedBy name id
  · -- the publication goes, and with it the subscribers of every service
    refine iff_of_false (fun hkept => ?_) (not_not.2 howned)
    have hgone : (d.topicRuntime.topic id).unpublished.published = false :=
      (TopicRuntime.TopicState.settle_kept _).2.1
    rw [htopic, if_pos howned, hgone, howned.published] at hkept
    exact absurd hkept.1 (by decide)
  · refine iff_of_true ⟨?_, ?_⟩ howned
    · rw [htopic, if_neg howned]
      exact hdropped.published id
    have htcp : s'.tcpTarget = d.tcpTarget := by rw [hs']; rfl
    have hshm : s'.shmTarget = d.shmTarget := by rw [hs']; rfl
    rw [broadcastTargets, broadcastTargets, htopic, if_neg howned, htcp, hshm, hdropped.tcp,
      hdropped.shm, filter_append, ← filter_reverse]
    refine congrArg₂ _ (filterMap_filter_target _ _ _ _ _ fun c _ => ?_)
      (filterMap_filter_target _ _ _ _ _ fun sub _ => ?_)
    · rw [← tcpTargets_detach hs hentry hdropped]
      by_cases hc : c ∈ entry.clients.keys
      · simp only [hc, not_true, decide_false, Bool.false_eq_true, if_false, if_true]
      · simp only [hc, not_false_iff, decide_true, if_true, if_false]
    · rw [← shmTargets_detach hdropped]
      split_ifs with hkeep
      · rfl
      have hname : name = sub.serviceName := by
        by_contra hne
        exact hkeep (decide_eq_true fun hboth => hne hboth.1.symm)
      rw [shmTarget_eq, hdropped.services, getElem?_erase, if_pos hname]
      rfl

/-! ### Every run -/

section
variable (h : s.WellFormed)
include h

/-- Changes to the topics only. -/
theorem WellFormed.mapTopics {f : TopicRuntime → TopicRuntime}
    (hf : (f s.topicRuntime).WellFormed) : (s.mapTopics f).WellFormed :=
  ⟨hf, h.named, h.clients⟩

/-- Services and clients go, and so may the numbers of clients. -/
theorem WellFormed.of_less (htopics : s'.topicRuntime.WellFormed)
    (hservices : ∀ (name : Bytes) (entry' : LocalServiceEntry), s'.localServices[name]? = some entry' →
      ∃ entry, s.localServices[name]? = some entry ∧ entry'.info = entry.info ∧
        ∀ c : Int, entry'.clients.contains c = true → entry.clients.contains c = true)
    (hnumbers : ∀ (c : Int) (name : Bytes), s'.clientIdToService[c]? = some name →
      s.clientIdToService[c]? = some name) : s'.WellFormed := by
  refine ⟨htopics, fun name entry' hentry' => ?_, fun name other entry' c hentry' hc hnumber => ?_⟩
  · obtain ⟨entry, hentry, hinfo, -⟩ := hservices name entry' hentry'
    rw [hinfo]
    exact h.named name entry hentry
  · obtain ⟨entry, hentry, -, hclients⟩ := hservices name entry' hentry'
    exact h.clients name other entry c hentry (hclients c hc) (hnumbers c other hnumber)

theorem WellFormed.erase_detach (name : Bytes) (entry : LocalServiceEntry) :
    ({ s with localServices := s.localServices.erase name }.detachClientsFromEntry
      name entry).WellFormed := by
  have hdropped := dropped_detach h entry name
  refine h.of_less hdropped.topics (fun n entry' hentry' => ?_) fun c n hn => ?_
  · rw [hdropped.services] at hentry'
    exact ⟨entry', (of_erase hentry').2, rfl, fun _ hc => hc⟩
  · rw [hdropped.numbers] at hn
    split_ifs at hn
    exact hn

theorem WellFormed.eraseNumber (clientId : Int) :
    ({ s with clientIdToService := s.clientIdToService.erase clientId } : LocalServices).WellFormed := by
  exact h.of_less h.topics (fun name entry hentry => ⟨entry, hentry, rfl, fun _ hc => hc⟩)
    fun c name hc => (of_erase hc).2

theorem WellFormed.onServiceClientDisconnected (name : Bytes) (clientId : Int) :
    (s.onServiceClientDisconnected name clientId).WellFormed := by
  unfold LocalServices.onServiceClientDisconnected
  cases hentry : s.localServices[name]? with
  | none => exact h.eraseNumber clientId
  | some entry =>
    dsimp only
    split_ifs
    · have hdropped := dropped_dropSubscriber (s := { s with
        localServices := s.localServices.insert name
          { entry with clients := entry.clients.erase clientId } }) h.topics name clientId
      refine h.of_less hdropped.topics (fun n entry' hentry' => ?_) fun c n hn => ?_
      · rcases of_insert (hdropped.services ▸ hentry') with ⟨rfl, rfl⟩ | ⟨-, hold⟩
        · refine ⟨entry, hentry, rfl, fun c hc => ?_⟩
          rw [Std.TreeMap.contains_erase, Bool.and_eq_true] at hc
          exact hc.2
        · exact ⟨entry', hold, rfl, fun _ hc => hc⟩
      · rw [hdropped.numbers] at hn
        split_ifs at hn
        exact hn
    · exact h.eraseNumber clientId

theorem WellFormed.onServiceClientAccepted (name : Bytes) (clientId : Int) (transport : TransportType) :
    (s.onServiceClientAccepted name clientId transport).WellFormed := by
  unfold LocalServices.onServiceClientAccepted
  cases hentry : s.localServices[name]? with
  | none => exact h
  | some entry =>
    split_ifs with hclient
    · exact h
    -- no service has a client of this number yet
    have hfree : ∀ (n : Bytes) (e : LocalServiceEntry), s.localServices[n]? = some e →
        ¬ e.clients.contains clientId = true := by
      intro n e he hc
      exact hclient (List.any_eq_true.2 ⟨(n, e), mem_toList.2 he, hc⟩)
    refine ⟨h.topics, fun n e he => ?_, fun n other e c he hc hnumber => ?_⟩
    · rcases of_insert he with ⟨rfl, rfl⟩ | ⟨-, he⟩
      · exact h.named n entry hentry
      · exact h.named n e he
    · rcases of_insert hnumber with ⟨rfl, rfl⟩ | ⟨hc', hold⟩
      · rcases of_insert he with ⟨rfl, -⟩ | ⟨-, he⟩
        · rfl
        · exact absurd hc (hfree n e he)
      · rcases of_insert he with ⟨rfl, rfl⟩ | ⟨-, he⟩
        · refine h.clients n other entry c hentry ?_ hold
          rw [Std.TreeMap.contains_insert, Bool.or_eq_true] at hc
          refine hc.resolve_left fun heq => hc' ?_
          exact Std.LawfulEqCmp.compare_eq_iff_eq.1 (eq_of_beq heq)
        · exact h.clients n other e c he hc hold

theorem WellFormed.publishTopicForService (serviceName topicName : Bytes)
    (idlHash : UInt32) (allowPending : Bool) (outcome : RequestOutcome) :
    (s.publishTopicForService serviceName topicName idlHash allowPending outcome).2.WellFormed := by
  have hremembered := h.mapTopics (f := fun t =>
    t.rememberPublishedTopic topicName (fnv1a32 topicName) serviceName idlHash)
    (h.topics.step (.rememberPublishedTopic topicName serviceName idlHash))
  unfold LocalServices.publishTopicForService
  by_cases hservice : (!s.localServices.contains serviceName) = true
  · simp only [if_pos hservice]
    exact h
  simp only [if_neg hservice]
  cases outcome with
  | malformed => exact h
  | notConnected | failed =>
    dsimp only
    split_ifs
    · exact hremembered
    · exact h
  | answered accepted =>
    cases accepted with
    | false => exact h
    | true => exact hremembered

theorem WellFormed.broadcastInternal (topicId : UInt32)
    (broken : BroadcastTarget → Bool) : (s.broadcastInternal topicId broken).WellFormed := by
  have hstale : ∀ (clients : List Int) (t : TopicRuntime), t.WellFormed →
      (clients.foldl (fun t c => t.removeTcpSubscriber topicId c) t).WellFormed := by
    intro clients
    induction clients with
    | nil => exact fun t ht => ht
    | cons c clients ih => exact fun t ht => ih _ (ht.step (.removeTcpSubscriber topicId c))
  have hfailed : ∀ (targets : List BroadcastTarget) (s : LocalServices), s.WellFormed →
      (targets.foldl (fun s target => s.onServiceClientDisconnected target.serviceName target.clientId)
        s).WellFormed := by
    intro targets
    induction targets with
    | nil => exact fun s hs => hs
    | cons target targets ih => exact fun s hs => ih _ (hs.onServiceClientDisconnected _ _)
  exact hfailed _ _ (h.mapTopics (hstale _ _ h.topics))

theorem WellFormed.step (event : LocalEvent) : (s.step event).WellFormed := by
  cases event with
  | registerService info topics =>
    simp only [LocalServices.step, LocalServices.registerService]
    split_ifs
    · exact h
    refine ⟨h.topics, fun n e he => ?_, fun n other e c he hc => ?_⟩
    · rcases of_insert he with ⟨rfl, rfl⟩ | ⟨-, he⟩
      · rfl
      · exact h.named n e he
    · rcases of_insert he with ⟨rfl, rfl⟩ | ⟨-, he⟩
      · simp at hc
      · exact h.clients n other e c he hc
  | abandonService name =>
    simp only [LocalServices.step, LocalServices.abandonService]
    cases s.localServices[name]? with
    | none => exact h
    | some entry => exact h.erase_detach name entry
  | publishTopicForService serviceName topicName idlHash allowPending outcome =>
    exact h.publishTopicForService ..
  | publishTopic topicName idlHash outcome =>
    simp only [LocalServices.step, LocalServices.publishTopic]
    cases s.localServices.minKey? with
    | none => exact h
    | some name =>
      cases outcome with
      | notConnected => exact h
      | failed | malformed | answered => exact h.publishTopicForService ..
  | unregisterService name =>
    simp only [LocalServices.step, LocalServices.unregisterService]
    cases s.localServices[name]? with
    | none => exact h
    | some entry =>
      have hdetached := h.erase_detach name entry
      exact hdetached.mapTopics (hdetached.topics.step (.forgetPublishedTopicsByOwner name))
  | accepted name clientId transport => exact h.onServiceClientAccepted name clientId transport
  | disconnected name clientId => exact h.onServiceClientDisconnected name clientId
  | subscribeBroadcast name clientId topicId =>
    simp only [LocalServices.step, LocalServices.subscribeBroadcast]
    split
    · exact h
    · exact h.mapTopics (h.topics.step (.addTcpSubscriber topicId clientId))
    · exact h.mapTopics (h.topics.step (.addShmSubscriberService topicId name _))
  | broadcast topicId broken =>
    exact h.broadcastInternal topicId broken

end

theorem wellFormed_run (events : List LocalEvent) :
    (Machine.run LocalServices.step LocalServices.init events).WellFormed :=
  Machine.run_invariant_of_step (P := WellFormed) (fun _ event h => h.step event) events wellFormed_init

/-- The registration of a service of the given name that publishes one topic. -/
def publishingService (name topicName : Bytes) : List LocalEvent :=
  [.registerService { ServiceInfo.init with name } [⟨topicName, 5⟩],
    .publishTopicForService name topicName 5 true (.answered true)]

/-- Two services publish the same topic, and a client subscribes through the first. The second, which
    published first, goes. -/
theorem first_publisher_goes :
    let s := Machine.run LocalServices.step LocalServices.init
      (publishingService (ascii "B") (ascii "t") ++ publishingService (ascii "A") (ascii "t") ++
        [.accepted (ascii "A") 7 .tcp, .subscribeBroadcast (ascii "A") 7 (fnv1a32 (ascii "t"))])
    let s' := s.unregisterService (ascii "B")
    (s'.topicRuntime.topic (fnv1a32 (ascii "t"))).published = true ∧
      s'.broadcastTargets (fnv1a32 (ascii "t")) = [⟨ascii "A", 7⟩] := by
  intro s s'
  have hbefore : (s.topicRuntime.topic (fnv1a32 (ascii "t"))).published = true ∧
      (s.broadcastTargets (fnv1a32 (ascii "t"))).filter (·.serviceName ≠ ascii "B") =
        [⟨ascii "A", 7⟩] := by
    decide +kernel
  obtain ⟨hpublished, htargets⟩ := (unregister_keeps_topic_iff s (wellFormed_run _) (ascii "B")
    (by decide +kernel) (fnv1a32 (ascii "t"))).2 (by decide +kernel)
  exact ⟨hpublished.trans hbefore.1, htargets.trans hbefore.2⟩

/-- The same with the second service as the one that published last: it is the recorded owner, and with it
    the topic of the first loses its publication and its subscriber. -/
theorem last_publisher_takes_the_subscribers :
    let s := Machine.run LocalServices.step LocalServices.init
      (publishingService (ascii "A") (ascii "t") ++ publishingService (ascii "B") (ascii "t") ++
        [.accepted (ascii "A") 7 .tcp, .subscribeBroadcast (ascii "A") 7 (fnv1a32 (ascii "t"))])
    let s' := s.unregisterService (ascii "B")
    (s.localServices[ascii "A"]?).map (·.publishedTopics) = some [⟨ascii "t", 5⟩] ∧
      s'.localServices.contains (ascii "A") = true ∧
      (s.topicRuntime.topic (fnv1a32 (ascii "t"))).published = true ∧
      s.broadcastTargets (fnv1a32 (ascii "t")) = [⟨ascii "A", 7⟩] ∧
      (s'.topicRuntime.topic (fnv1a32 (ascii "t"))).published = false ∧
      s'.broadcastTargets (fnv1a32 (ascii "t")) = [] := by
  decide +kernel

end OmniBinder.LocalServices

namespace OmniBinder

open Option

variable {s : SubscriptionSelector} {topicId : UInt32} {target : BroadcastTarget}

/-- What `dispatchFrom` calls is what the message reaches. -/
theorem TopicRuntime.dispatchFrom_eq (t : TopicRuntime) (publisher : ServiceIdentity) (id : UInt32) :
    t.dispatchFrom publisher id = (t.reached publisher id).filterMap fun sub =>
      sub.sourceCallback.map fun callback => ⟨callback, publisher.hostId, publisher.instanceId⟩ := by
  rw [dispatchFrom, reached, List.filterMap_filter]
  refine List.filterMap_congr fun sub _ => ?_
  cases hcallback : sub.sourceCallback with
  | none => simp
  | some callback => simp

/-- Through the connection to another service a subscription is reached only if it is for that one, or for
    all. -/
theorem SubscriptionSelector.matches_other {publisher other : ServiceIdentity}
    (h : s.matches publisher = true) (hne : publisher.name ≠ other.name) :
    s.matches other = true ↔ s.publisherService = [] := by
  unfold SubscriptionSelector.matches at h ⊢
  by_cases hempty : s.publisherService = []
  · simp [hempty]
  have hfalse : ¬ s.publisherService.isEmpty = true := by simpa using hempty
  simp only [if_neg hfalse] at h ⊢
  by_cases hname : s.publisherService = publisher.name
  · simp [hname, hne, hname ▸ hempty]
  · simp [hname] at h

/-- A message without a known source reaches the subscriptions for all services. -/
theorem SubscriptionSelector.matches_unknown
    (h : s.matches ⟨[], [], []⟩ = true) : s.publisherService = [] := by
  unfold SubscriptionSelector.matches at h
  by_contra hempty
  simp [hempty] at h

namespace TopicNetwork

variable {n : TopicNetwork}

theorem mem_broadcastTargets {s : LocalServices}
    (h : target ∈ s.broadcastTargets topicId) :
    ∃ entry : LocalServiceEntry, s.localServices[target.serviceName]? = some entry ∧
      entry.clients.contains target.clientId = true := by
  rcases List.mem_append.1 h with h | h
  · obtain ⟨clientId, -, htarget⟩ := List.mem_filterMap.1 h
    obtain ⟨name, -, htarget⟩ := bind_eq_some_iff.1 htarget
    obtain ⟨entry, hentry, htarget⟩ := bind_eq_some_iff.1 htarget
    split_ifs at htarget with hclient
    cases htarget
    exact ⟨entry, hentry, hclient⟩
  · obtain ⟨subscriber, -, htarget⟩ := List.mem_filterMap.1 h
    obtain ⟨entry, hentry, htarget⟩ := bind_eq_some_iff.1 htarget
    dsimp only at htarget
    split_ifs at htarget with hclient
    cases htarget
    exact ⟨entry, hentry, hclient⟩

/-- The callback belongs to a subscription to the topic whose selector matches the service. -/
def Addressed (n : TopicNetwork) (publisher : ServiceIdentity) (topicName : Bytes) (d : Delivery) : Prop :=
  ((n.subscriber d.runtime).topic (Idl.fnv1aHash topicName)).name = topicName ∧
    d.subscription.selector.matches publisher = true

/-- No client that has subscribed through another service has a subscription for that service, and the
    subscriptions under the id of the topic are for the topic. -/
def separate (n : TopicNetwork) (service topicName : Bytes) : Prop :=
  ∀ target ∈ n.publisher.broadcastTargets (Idl.fnv1aHash topicName),
    ∀ link ∈ n.links[target.clientId]?,
      ∀ sub ∈ (n.subscriber link.runtime).reached link.source (Idl.fnv1aHash topicName),
        ((n.subscriber link.runtime).topic (Idl.fnv1aHash topicName)).name = topicName ∧
          (target.serviceName = service ∨ sub.selector.publisherService = [])

theorem mem_broadcast {d : Delivery} :
    d ∈ n.broadcast topicId ↔ ∃ target ∈ n.publisher.broadcastTargets topicId,
      ∃ link ∈ n.links[target.clientId]?, d.runtime = link.runtime ∧
        d.subscription ∈ (n.subscriber link.runtime).reached link.source topicId := by
  rw [broadcast, List.mem_flatMap]
  refine exists_congr fun target => and_congr_right fun _ => ?_
  unfold received
  cases n.links[target.clientId]? with
  | none => simp
  | some link =>
    simp only [List.mem_map, mem_def, Option.some.injEq, exists_eq_left']
    constructor
    · rintro ⟨sub, hsub, rfl⟩
      exact ⟨rfl, hsub⟩
    · rintro ⟨hruntime, hsub⟩
      exact ⟨d.subscription, hsub, by rw [← hruntime]⟩

/-- Which of the reached subscriptions match the service that broadcasts. -/
theorem matches_iff {service : Bytes} {entry : LocalServiceEntry}
    (hentry : n.publisher.localServices[service]? = some entry) (htarget : target ∈ n.publisher.broadcastTargets topicId)
    {link : SubscriberLink} (hlink : link ∈ n.links[target.clientId]?) {sub : Subscription}
    (hsub : sub.selector.matches link.source = true) : sub.selector.matches entry.info.identity = true ↔
      target.serviceName = service ∨ sub.selector.publisherService = [] := by
  have hall : sub.selector.publisherService = [] → sub.selector.matches entry.info.identity = true := by
    intro hempty
    simp [SubscriptionSelector.matches, hempty]
  obtain ⟨accepting, haccepting, hclient⟩ := mem_broadcastTargets htarget
  cases hinfo : link.info with
  | none =>
    rw [SubscriberLink.source, hinfo] at hsub
    have hempty := SubscriptionSelector.matches_unknown hsub
    exact iff_of_true (hall hempty) (.inr hempty)
  | some identity =>
    have hidentity : identity = accepting.info.identity :=
      n.faithful target.clientId link target.serviceName accepting identity hlink haccepting hclient hinfo
    rw [SubscriberLink.source, hinfo, getD_some, hidentity] at hsub
    by_cases hsame : target.serviceName = service
    · rw [hsame, hentry] at haccepting
      cases haccepting
      exact iff_of_true hsub (.inl hsame)
    · rw [SubscriptionSelector.matches_other hsub, or_iff_right hsame]
      have hname : accepting.info.name = target.serviceName := n.named _ _ haccepting
      have hservice : entry.info.name = service := n.named _ _ hentry
      change accepting.info.name ≠ entry.info.name
      rw [hname, hservice]
      exact hsame

/-- What a service broadcasts reaches only callbacks of subscriptions to the topic that match the service,
    exactly if no other service of the runtime has subscribers of its own under the id of the topic. -/
theorem broadcast_addressed_iff_separate (n : TopicNetwork) (service topicName : Bytes)
    (entry : LocalServiceEntry) (hentry : n.publisher.localServices[service]? = some entry) :
    (∀ d ∈ n.stubBroadcast service topicName, n.Addressed entry.info.identity topicName d) ↔
      n.separate service topicName := by
  constructor
  · intro haddressed target htarget link hlink sub hsub
    obtain ⟨hname, hmatches⟩ := haddressed ⟨link.runtime, sub⟩
      (mem_broadcast.2 ⟨target, htarget, link, hlink, rfl, hsub⟩)
    have hreached : sub.selector.matches link.source = true := by
      have := (List.mem_filter.1 hsub).2
      simp only [Bool.and_eq_true] at this
      exact this.1.1
    exact ⟨hname, (matches_iff hentry htarget hlink hreached).1 hmatches⟩
  · intro hseparate d hd
    obtain ⟨target, htarget, link, hlink, hruntime, hsub⟩ := mem_broadcast.1 hd
    obtain ⟨hname, hmatches⟩ := hseparate target htarget link hlink d.subscription hsub
    have hreached : d.subscription.selector.matches link.source = true := by
      have := (List.mem_filter.1 hsub).2
      simp only [Bool.and_eq_true] at this
      exact this.1.1
    refine ⟨?_, (matches_iff hentry htarget hlink hreached).2 hmatches⟩
    rw [hruntime]
    exact hname

/-- Two services publish the same topic, and one client has subscribed to it through one of them. -/
def sampleServices (through : Bytes) : LocalServices :=
  Machine.run LocalServices.step LocalServices.init
    (LocalServices.publishingService (ascii "A") (ascii "t") ++
      LocalServices.publishingService (ascii "B") (ascii "t") ++
      [.accepted through 7 .tcp, .subscribeBroadcast through 7 (fnv1a32 (ascii "t"))])

/-- A runtime that subscribes to the topic of one service. -/
def sampleSubscriber (service : Bytes) : TopicRuntime :=
  TopicRuntime.init.rememberSubscription (ascii "t") ⟨service, [], [], false⟩ (some 1) 0

/-- The client of the services above is a runtime that subscribes to the topic of the service it is
    connected to. -/
def sampleNetwork (through : Bytes)
    (hnumber : (sampleServices through).clientIdToService[(7 : Int)]? = some through)
    (hinfo : ((sampleServices through).localServices[through]?).map (·.info.identity) =
      some ⟨through, [], []⟩) : TopicNetwork where
  publisher := sampleServices through
  links := (∅ : Table Int SubscriberLink).insert 7 ⟨0, some ⟨through, [], []⟩⟩
  subscribers := (∅ : Table Nat TopicRuntime).insert 0 (sampleSubscriber through)
  named := (LocalServices.wellFormed_run _).named
  faithful := by
    intro clientId link name entry identity hlink hentry hclient hidentity
    rcases Table.of_insert hlink with ⟨rfl, rfl⟩ | ⟨-, hlink⟩
    · cases hidentity
      obtain rfl := (LocalServices.wellFormed_run _).clients name through entry 7 hentry hclient hnumber
      rw [hentry] at hinfo
      exact (Option.some.inj hinfo).symm
    · cases hlink

/-- The subscriber is connected to the service that broadcasts. -/
theorem own_subscriber_addressed :
    let n := sampleNetwork (ascii "A") (by decide +kernel) (by decide +kernel)
    (n.stubBroadcast (ascii "A") (ascii "t")).map (·.subscription.sourceCallback) = [some 1] ∧
      ∀ d ∈ n.stubBroadcast (ascii "A") (ascii "t"),
        n.Addressed ⟨ascii "A", [], []⟩ (ascii "t") d := by
  intro n
  have hreached : (n.stubBroadcast (ascii "A") (ascii "t")).map (·.subscription.sourceCallback) =
      [some 1] := by
    decide +kernel
  obtain ⟨entry, hentry⟩ : ∃ entry, n.publisher.localServices[ascii "A"]? = some entry :=
    isSome_iff_exists.1 (by decide +kernel)
  have hidentity : entry.info.identity = ⟨ascii "A", [], []⟩ := by
    have hmap : (n.publisher.localServices[ascii "A"]?).map (·.info.identity) =
        some ⟨ascii "A", [], []⟩ := by decide +kernel
    rw [hentry] at hmap
    exact Option.some.inj hmap
  have hseparate : n.separate (ascii "A") (ascii "t") := by
    unfold separate
    decide +kernel
  rw [← hidentity]
  exact ⟨hreached, (broadcast_addressed_iff_separate n (ascii "A") (ascii "t") entry hentry).2 hseparate⟩

/-- The subscriber is connected to the other service, and has subscribed to the topic of that one only. The
    message reaches its callback. -/
theorem message_of_other_service_delivered :
    let n := sampleNetwork (ascii "B") (by decide +kernel) (by decide +kernel)
    n.publisher.localServices.contains (ascii "A") = true ∧
      (n.stubBroadcast (ascii "A") (ascii "t")).map (fun d =>
        (d.runtime, d.subscription.selector, d.subscription.sourceCallback)) =
          [(0, ⟨ascii "B", [], [], false⟩, some 1)] ∧
      ((n.subscriber 0).topic (fnv1a32 (ascii "t"))).subscriptions.all (fun sub =>
        !sub.selector.matches ⟨ascii "A", [], []⟩) = true := by
  decide +kernel

end TopicNetwork

end OmniBinder
