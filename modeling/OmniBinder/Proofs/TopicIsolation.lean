/-
Module: OmniBinder.Proofs.TopicIsolation
Purpose: Topics are kept under the 32-bit hashes of their names, so a topic is out of reach of the calls
  for another exactly when the two hashes differ. A failed `subscribeTopic` takes the subscription back by
  its key at every error exit. One call leaves unused topics behind.
Trusted boundary: none
Main exports: TopicRuntime.isolated_iff, TopicRuntime.rejected_duplicate_forgets
-/
import OmniBinder.Lib.Machine
import OmniBinder.Proofs.TopicRuntimeSpec

namespace OmniBinder.TopicRuntime

variable {t t' : TopicRuntime} {name other : Bytes} {id : UInt32}

theorem wellFormed_run (calls : List Call) : (Machine.run step init calls).WellFormed :=
  Machine.run_invariant_of_step (P := WellFormed) (fun _ call h => h.step call) calls wellFormed_init

/-! ### Unused topics -/

/-- At most the topics with the given ids are in the table without use. -/
def UsedBut (ids : UInt32 → Prop) (t : TopicRuntime) : Prop :=
  ∀ id s, t.topics[id]? = some s → s.isUnused = true → ids id

section
variable {ids : UInt32 → Prop} {f : TopicState → TopicState}

/-- One topic is changed. -/
theorem UsedBut.change (h : t.UsedBut ids) (id : UInt32)
    (hothers : ∀ a, id ≠ a → t'.topics[a]? = t.topics[a]?)
    (hself : ∀ s, t'.topics[id]? = some s → s.isUnused = true → ids id) : t'.UsedBut ids := by
  intro a s hs hunused
  by_cases ha : id = a
  · subst ha
    exact hself s hs hunused
  · exact h a s (hothers a ha ▸ hs) hunused

theorem topics_modifyTopic (t : TopicRuntime) (id a : UInt32) (f : TopicState → TopicState) :
    (t.modifyTopic id f).topics[a]? =
      if id = a then t.topics[id]?.bind fun s => some (f s) else t.topics[a]? :=
  Table.getElem?_adjust _ _ _ _

/-- A topic that is made sure of and then put to use. -/
theorem UsedBut.used (h : t.UsedBut ids) (hf : ∀ s, ¬ (f s).isUnused = true) :
    ((t.ensureTopic id name).modifyTopic id f).UsedBut ids := by
  refine h.change id (fun a ha => ?_) fun s hs hunused => ?_
  · rw [topics_modifyTopic, if_neg ha, ensureTopic]
    split_ifs <;> exact Table.getElem?_insert_of_ne _ ha _
  · rw [topics_modifyTopic, if_pos rfl] at hs
    obtain ⟨s', -, hs'⟩ := Option.bind_eq_some_iff.mp hs
    exact absurd (Option.some.inj hs' ▸ hunused) (hf s')

/-- A topic that is changed and then erased if that leaves it unused. -/
theorem UsedBut.swept {nameToId : Table Bytes UInt32} (h : t.UsedBut ids) :
    (eraseTopicIfUnused ⟨(t.modifyTopic id f).topics, nameToId⟩ id).UsedBut ids := by
  refine h.change id (fun a ha => ?_) fun s hs hunused => ?_
  · rw [topics_eraseTopicIfUnused, if_neg ha]
    exact (topics_modifyTopic t id a f).trans (if_neg ha)
  · rw [topics_eraseTopicIfUnused, if_pos rfl, Option.filter_eq_some_iff] at hs
    simp [hunused] at hs

theorem callRule_usedBut : CallRule (fun _ => True) (fun _ id _ => ids id) (UsedBut ids) where
  subscribed {_ _ selector f} h _ hkey _ := h.used fun s => TopicState.Active.used <| .inl fun hnil => by
    have hkeys := s.keys_modifySubscription selector f hkey
    rw [hnil] at hkeys
    split_ifs at hkeys with hany
    · simp [List.map_eq_nil_iff.mp hkeys.symm] at hany
    · simp at hkeys
  published h _ := h.used fun _ => TopicState.Active.used (.inr rfl)
  dropped h _ _ := by
    rw [dropNameIfUnused_eq]
    exact h.swept
  swept h _ := h.swept
  entered h hf := h.used fun s => (hf s).2.2.2
  removed {t id _} h hid :=
    h.change id (fun a ha => (topics_modifyTopic t id a _).trans (if_neg ha)) fun _ _ _ => hid

end

/-- No call leaks a topic but one: a topic that is in the table without a subscription, a publication or
    a subscriber is one that `removeTcpSubscriber` was called for. -/
theorem unused_topic_from_removeTcpSubscriber (calls : List Call) (id : UInt32) (s : TopicState) :
    (Machine.run step init calls).topics[id]? = some s → s.isUnused = true →
      ∃ clientFd, .removeTcpSubscriber id clientFd ∈ calls := by
  have hempty : init.UsedBut fun id => ∃ clientFd, .removeTcpSubscriber id clientFd ∈ calls := by
    intro id s hs
    simp [init] at hs
  exact List.foldlRecOn calls step hempty (fun t h call hcall =>
    callRule_usedBut.step h (fun _ _ => trivial) fun id clientFd hremove => ⟨clientFd, hremove ▸ hcall⟩) id s

/-- The last subscriber of a topic goes and the topic stays. -/
theorem removed_subscriber_leaves_topic :
    let calls : List Call := [.addTcpSubscriber 1 5, .removeTcpSubscriber 1 5]
    (Machine.run step init calls).topics[(1 : UInt32)]? = some { TopicState.init with id := 1 } ∧
      ∃ clientFd, Call.removeTcpSubscriber 1 clientFd ∈ calls :=
  ⟨by decide +kernel, unused_topic_from_removeTcpSubscriber _ 1 { TopicState.init with id := 1 }
    (by decide +kernel) (by decide)⟩

/-! ### What a name stands for -/

/-- Nothing that is kept for a topic has changed: the topic itself, that its name leads to it, the
    subscriptions and the publication that are sent again. -/
structure SameTopic (t t' : TopicRuntime) (name : Bytes) : Prop where
  topic : t'.topic (fnv1a32 name) = t.topic (fnv1a32 name)
  listed : t'.nameToId[name]? = t.nameToId[name]?
  records : ∀ record : SubscriptionRecord, record.topicName = name →
    (record ∈ t'.subscriptionRecords ↔ record ∈ t.subscriptionRecords)
  publication : t'.publishedTopics[name]? = t.publishedTopics[name]?

/-- Of the topics in the table, only the one under the hash can have the name. -/
theorem WellFormed.eq_topic (h : t.WellFormed) {s : TopicState} (hmem : (id, s) ∈ t.topics.toList)
    (hname : s.name.isEmpty = false) : t.topic (fnv1a32 s.name) = s := by
  have hs : t.topic id = s := topic_of_some (Table.mem_toList.1 hmem)
  have hid : fnv1a32 s.name = id := by
    rw [← hs]
    exact h.named id (by simpa [hs] using hname)
  rw [hid, hs]

/-- A topic of which something is known is in the table. -/
theorem mem_toList_of_name (hname : (t.topic id).name.isEmpty = false) :
    (id, t.topic id) ∈ t.topics.toList := by
  cases hid : t.topics[id]? with
  | none =>
    rw [topic, hid] at hname
    cases hname
  | some s => rw [topic_of_some hid, Table.mem_toList, hid]

theorem WellFormed.mem_subscriptionRecords (h : t.WellFormed) {record : SubscriptionRecord}
    (hrecord : record.topicName = name) :
    record ∈ t.subscriptionRecords ↔ name ≠ [] ∧ (t.topic (fnv1a32 name)).name = name ∧
      ∃ sub ∈ (t.topic (fnv1a32 name)).subscriptions, sub.hasSourceCallback = true ∧
        ⟨name, sub.selector, sub.expectedIdlHash⟩ = record := by
  simp only [subscriptionRecords, List.mem_flatMap, Prod.exists]
  constructor
  · rintro ⟨id, s, hmem, hin⟩
    split_ifs at hin with hempty
    · cases hin
    obtain ⟨sub, hsub, rfl⟩ := List.mem_map.1 hin
    obtain rfl : s.name = name := hrecord
    obtain ⟨hsub, hcallback⟩ := List.mem_filter.1 hsub
    have hempty : s.name.isEmpty = false := by simpa using hempty
    rw [h.eq_topic hmem hempty]
    exact ⟨by simpa using hempty, rfl, sub, hsub, hcallback, rfl⟩
  · rintro ⟨hne, hname, sub, hsub, hcallback, rfl⟩
    have hempty : (t.topic (fnv1a32 name)).name.isEmpty = false := by simpa [hname] using hne
    refine ⟨_, _, mem_toList_of_name hempty, ?_⟩
    rw [if_neg (by simp [hempty])]
    refine List.mem_map.2 ⟨sub, List.mem_filter.2 ⟨hsub, hcallback⟩, by rw [hname]⟩

/-- The publication of a name, as far as the topics have been gone through. -/
theorem WellFormed.foldl_publishedTopics (h : t.WellFormed) (name : Bytes)
    (l : List (UInt32 × TopicState)) (hl : ∀ p ∈ l, p ∈ t.topics.toList)
    (result : Table Bytes (Bytes × UInt32)) :
    (l.foldl (fun result (p : UInt32 × TopicState) =>
        if p.2.published ∧ !p.2.name.isEmpty then
          result.insert p.2.name (p.2.ownerService, p.2.publishedHash)
        else result) result)[name]? =
      if ∃ p ∈ l, p.2.published ∧ name ≠ [] ∧ p.2.name = name then
        some ((t.topic (fnv1a32 name)).ownerService, (t.topic (fnv1a32 name)).publishedHash)
      else result[name]? := by
  induction l generalizing result with
  | nil => simp
  | cons p l ih =>
    rw [List.foldl_cons, ih fun q hq => hl q (List.mem_cons_of_mem p hq)]
    simp only [List.mem_cons, exists_eq_or_imp]
    by_cases hlater : ∃ q ∈ l, q.2.published ∧ name ≠ [] ∧ q.2.name = name
    · rw [if_pos hlater, if_pos (.inr hlater)]
    rw [if_neg hlater]
    by_cases hhere : p.2.published ∧ name ≠ [] ∧ p.2.name = name
    · obtain ⟨hpublished, hne, rfl⟩ := hhere
      have hempty : p.2.name.isEmpty = false := by simpa using hne
      rw [if_pos ⟨hpublished, by simp [hempty]⟩, if_pos (.inl ⟨hpublished, hne, rfl⟩),
        Table.getElem?_insert, if_pos rfl, h.eq_topic (hl p List.mem_cons_self) hempty]
    · rw [if_neg (not_or.2 ⟨hhere, hlater⟩)]
      split_ifs with hinserted
      · refine (Table.getElem?_insert _ _ _ _).trans (if_neg fun hsame => hhere ?_)
        exact ⟨hinserted.1, by simpa [hsame] using hinserted.2, hsame⟩
      · rfl

theorem WellFormed.publishedTopics_eq (h : t.WellFormed) (name : Bytes) : t.publishedTopics[name]? =
      if (t.topic (fnv1a32 name)).published ∧ name ≠ [] ∧ (t.topic (fnv1a32 name)).name = name then
        some ((t.topic (fnv1a32 name)).ownerService, (t.topic (fnv1a32 name)).publishedHash)
      else none := by
  refine (h.foldl_publishedTopics name _ (fun _ hp => hp) ∅).trans (if_congr ?_ rfl (by simp))
  constructor
  · rintro ⟨⟨id, s⟩, hmem, hpublished, hne, rfl⟩
    rw [h.eq_topic hmem (by simpa using hne)]
    exact ⟨hpublished, hne, rfl⟩
  · rintro ⟨hpublished, hne, hname⟩
    exact ⟨_, mem_toList_of_name (by simpa [hname] using hne), hpublished, hne, hname⟩

theorem WellFormed.sameTopic (h : t.WellFormed) (h' : t'.WellFormed)
    (htopic : t'.topic (fnv1a32 name) = t.topic (fnv1a32 name))
    (hlisted : t'.nameToId[name]? = t.nameToId[name]?) : SameTopic t t' name where
  topic := htopic
  listed := hlisted
  records _ hrecord := by
    rw [h.mem_subscriptionRecords hrecord, h'.mem_subscriptionRecords hrecord, htopic]
  publication := by rw [h.publishedTopics_eq, h'.publishedTopics_eq, htopic]

/-! ### The calls for another topic -/

theorem nameToId_modifyEnsured (hne : name ≠ other) (f : TopicState → TopicState) :
    ((t.ensureTopic id name).modifyTopic id f).nameToId[other]? = t.nameToId[other]? := by
  unfold modifyTopic ensureTopic
  split_ifs
  · rfl
  · exact (Table.getElem?_insert _ _ _ _).trans (if_neg hne)

theorem WellFormed.sameTopic_step (h : t.WellFormed) {call : Call} (hcall : call.topicName = some name)
    (hne : fnv1a32 name ≠ fnv1a32 other) : SameTopic t (t.step call) other := by
  have hnames : name ≠ other := fun heq => hne (heq ▸ rfl)
  have hlist : t.nameToId[name]? ≠ some (fnv1a32 other) := fun heq => hne (h.indexed name _ heq).2
  suffices hkept : (t.step call).topic (fnv1a32 other) = t.topic (fnv1a32 other) ∧
      (t.step call).nameToId[other]? = t.nameToId[other]? from h.sameTopic (h.step call) hkept.1 hkept.2
  cases call with
  | rememberSubscription | setErrorCallback | setExpectedSubscriptionHash | rememberPublishedTopic =>
    cases hcall
    exact ⟨(topic_modifyTopic_ensureTopic _ _ _ _ _).trans (if_neg hne),
      nameToId_modifyEnsured hnames _⟩
  | forgetSubscription =>
    cases hcall
    exact ⟨(topic_forgetSubscription _ _ _ _).trans (if_neg hlist),
      h.nameToId_forgetSubscription_of_ne hne.symm⟩
  | forgetPublishedTopic =>
    cases hcall
    exact ⟨(topic_forgetPublishedTopic _ _ _).trans (if_neg fun heq => hlist heq.1),
      h.nameToId_forgetPublishedTopic_of_ne hne.symm⟩
  | _ => cases hcall

/-! ### Isolation -/

/-- In every state that calls lead to, the calls for the first topic change nothing of the second, and
    the calls for the second, subscriptions above all, do not change which callbacks a broadcast of the
    first is dispatched to. -/
structure Isolated (a b : Bytes) : Prop where
  kept : ∀ (calls : List Call) (call : Call), call.topicName = some a →
    SameTopic (Machine.run step init calls) ((Machine.run step init calls).step call) b
  dispatched : ∀ (calls : List Call) (call : Call), call.topicName = some b →
    ∀ publisher : ServiceIdentity,
      ((Machine.run step init calls).step call).dispatchFrom publisher (fnv1a32 a) =
        (Machine.run step init calls).dispatchFrom publisher (fnv1a32 a)

theorem isolated_iff (a b : Bytes) : Isolated a b ↔ fnv1a32 a ≠ fnv1a32 b := by
  constructor
  · intro h heq
    -- the first subscription to the second topic is reached by a broadcast of the first
    have hsubs : ((init.rememberSubscription b .init (some 0) 0).topic (fnv1a32 a)).subscriptions =
        [⟨.init, SubscriptionSelector.init.key, some 0, true, none, false, 0⟩] := by
      rw [heq, rememberSubscription, topic_modifyTopic_ensureTopic, if_pos rfl]
      rfl
    have hsame := h.dispatched [] (.rememberSubscription b .init (some 0) 0) rfl ⟨[], [], []⟩
    rw [dispatchFrom, Machine.run_nil, step, hsubs] at hsame
    cases hsame
  · intro hne
    refine ⟨fun calls call hcall => (wellFormed_run calls).sameTopic_step hcall hne, ?_⟩
    intro calls call hcall publisher
    rw [dispatchFrom, ((wellFormed_run calls).sameTopic_step hcall hne.symm).topic, dispatchFrom]

/-- Two words with one hash. The second subscription takes over the topic of the first, whose records
    are gone, and its broadcasts reach both callbacks. -/
theorem colliding_names_share_topic :
    let first := ascii "liquid"
    let second := ascii "costarring"
    let selector : SubscriptionSelector := ⟨ascii "s", [], [], false⟩
    let before := Machine.run step init [.rememberSubscription first .init (some 1) 7]
    let after := before.step (.rememberSubscription second selector (some 2) 8)
    first ≠ second ∧ before.subscriptionRecords = [⟨first, .init, 7⟩] ∧
      after.subscriptionRecords = [⟨second, .init, 7⟩, ⟨second, selector, 8⟩] ∧
      after.dispatchFrom ⟨ascii "s", [], []⟩ (fnv1a32 second) = [⟨1, [], []⟩, ⟨2, [], []⟩] ∧
      ¬ Isolated second first := by
  refine ⟨by decide, by decide +kernel, by decide +kernel, by decide +kernel, fun h => ?_⟩
  have hrecords := (h.kept [.rememberSubscription (ascii "liquid") .init (some 1) 7]
    (.rememberSubscription (ascii "costarring") ⟨ascii "s", [], [], false⟩ (some 2) 8) rfl).records
    ⟨ascii "liquid", .init, 7⟩ rfl
  exact absurd (hrecords.2 (by decide +kernel)) (by decide +kernel)

open List

/-- The subscriptions stored under an id, each with the name of its topic. -/
def TopicState.stored (s : TopicState) : List (Bytes × Subscription) :=
  s.subscriptions.map fun sub => (s.name, sub)

def stored (t : TopicRuntime) (id : UInt32) : List (Bytes × Subscription) := (t.topic id).stored

/-- A topic with a name has no subscription with the key of the call, and none of another name with the
    same id. The topic without a name is never taken back, so that its subscription has to be there with
    the hash of the call. -/
def rollsBack (t : TopicRuntime) (call : SubscribeCall) : Prop :=
  let topic := t.topic (fnv1a32 call.topicName)
  if call.topicName = [] then
    ∃ sub ∈ topic.subscriptions, sub.key = call.selector.key ∧ sub.expectedIdlHash = call.expectedIdlHash
  else
    ∀ sub ∈ topic.subscriptions, sub.key ≠ call.selector.key ∧ topic.name = call.topicName

variable {t : TopicRuntime} {call : SubscribeCall}

/-! ### A topic with a name -/

theorem TopicState.stored_settle (s : TopicState) : s.settle.stored = s.stored := by
  unfold settle
  split_ifs with h
  · have hnone := (isUnused_iff.1 h).1
    simp [stored, hnone, init]
  · rfl

theorem nameToId_beginSubscribe (t : TopicRuntime) (call : SubscribeCall) (name : Bytes) :
    (t.beginSubscribe call).nameToId[name]? =
      if call.topicName ≠ [] ∧ call.topicName = name then some (fnv1a32 call.topicName)
      else t.nameToId[name]? := by
  unfold beginSubscribe setExpectedSubscriptionHash modifyTopic ensureTopic
  by_cases hname : call.topicName = []
  · simp [hname]
  · have hfalse : ¬ call.topicName.isEmpty = true := by simpa using hname
    simp only [if_neg hfalse, Table.getElem?_insert]
    simp [hname]

/-- Entering the hash and taking the subscription back is taking it back. -/
theorem stored_forget_begin (hname : call.topicName ≠ []) (a : UInt32) :
    ((t.beginSubscribe call).forgetSubscription call.topicName call.selector).stored a =
      if fnv1a32 call.topicName = a then
        ((t.topic (fnv1a32 call.topicName)).subscriptions.eraseP (·.key = call.selector.key)).map
          fun sub => (call.topicName, sub)
      else t.stored a := by
  have hfalse : ¬ call.topicName.isEmpty = true := by simpa using hname
  have hlisted : (t.beginSubscribe call).nameToId[call.topicName]? = some (fnv1a32 call.topicName) := by
    rw [nameToId_beginSubscribe, if_pos ⟨hname, rfl⟩]
  have htopic := topic_forgetSubscription (t.beginSubscribe call) call.topicName call.selector a
  have hbegun : (t.beginSubscribe call).topic a = _ :=
    topic_modifyTopic_ensureTopic t (fnv1a32 call.topicName) a call.topicName _
  simp only [hlisted, Option.some.injEq] at htopic
  unfold stored
  by_cases ha : fnv1a32 call.topicName = a
  · subst ha
    rw [if_pos rfl] at htopic ⊢
    rw [if_pos rfl, if_neg hfalse] at hbegun
    rw [htopic, TopicState.stored_settle, TopicState.stored]
    rw [hbegun, TopicState.name_modifySubscription, TopicState.eraseP_modifySubscription]
    exact fun _ => rfl
  · rw [if_neg ha] at htopic hbegun ⊢
    rw [htopic, hbegun]

/-- Erasing a match and renaming changes nothing exactly if there is no match and no other name. -/
theorem map_eraseP_eq_iff {α : Type} (p : α → Bool) (l : List α) (new old : Bytes) :
    (l.eraseP p).map (fun x => (new, x)) = l.map (fun x => (old, x)) ↔
      ∀ x ∈ l, ¬ p x = true ∧ old = new := by
  constructor
  · intro h x hx
    have hlength : (l.eraseP p).length = l.length := by
      simpa using congrArg List.length h
    have hsame : l.eraseP p = l := List.Sublist.eq_of_length eraseP_sublist hlength
    have hpair : (new, x) ∈ l.map (fun x => (old, x)) := by
      rw [← h, hsame]
      exact List.mem_map_of_mem hx
    obtain ⟨y, -, hy⟩ := List.mem_map.1 hpair
    refine ⟨fun hpx => ?_, congrArg Prod.fst hy⟩
    have := length_eraseP_of_mem hx hpx
    have := length_pos_of_mem hx
    omega
  · intro h
    rw [eraseP_of_forall_not fun x hx => (h x hx).1]
    exact map_congr_left fun x hx => by rw [(h x hx).2]

/-! ### The topic without a name -/

/-- Changing the first match changes the list exactly if it changes that match. -/
theorem modify_findIdx_eq_self_iff {α : Type} (p : α → Bool) (f : α → α) (l : List α) :
    l.modify (l.findIdx p) f = l ↔ ∀ x, l.find? p = some x → f x = x := by
  induction l with
  | nil => simp
  | cons x l ih =>
    by_cases hx : p x
    · simp [findIdx_cons, hx]
    · simp [findIdx_cons, hx, ih]

theorem TopicState.Keyed.find?_eq_some {s : TopicState} (h : s.Keyed) {key : Bytes}
    {sub : Subscription} (hsub : sub ∈ s.subscriptions) (hkey : sub.key = key) :
    s.subscriptions.find? (·.key = key) = some sub := by
  have hdistinct := h.distinct
  generalize s.subscriptions = l at hsub hdistinct
  induction l with
  | nil => cases hsub
  | cons x l ih =>
    obtain ⟨hx, hl⟩ := nodup_cons.1 hdistinct
    rcases mem_cons.1 hsub with rfl | hsub
    · simp [hkey]
    · have hne : x.key ≠ key := fun heq => hx (List.mem_map.2 ⟨sub, hsub, hkey.trans heq.symm⟩)
      simp [hne, ih hsub hl]

/-- Entering a hash changes nothing exactly if it is there already. -/
theorem TopicState.Keyed.setHash_eq_self_iff {s : TopicState} (h : s.Keyed)
    (selector : SubscriptionSelector) (hash : UInt32) :
    (s.modifySubscription selector fun sub => { sub with expectedIdlHash := hash }).subscriptions =
        s.subscriptions ↔
      ∃ sub ∈ s.subscriptions, sub.key = selector.key ∧ sub.expectedIdlHash = hash := by
  by_cases hany : s.subscriptions.any (·.key = selector.key)
  · simp only [TopicState.modifySubscription, TopicState.ensureSubscription, if_pos hany]
    rw [modify_findIdx_eq_self_iff]
    obtain ⟨sub, hsub, hkey⟩ := List.any_eq_true.1 hany
    have hkey : sub.key = selector.key := by simpa using hkey
    have hfound := h.find?_eq_some hsub hkey
    constructor
    · intro hsame
      exact ⟨sub, hsub, hkey, (congrArg Subscription.expectedIdlHash (hsame sub hfound)).symm⟩
    · rintro ⟨other, hother, hokey, rfl⟩ found hsome
      obtain rfl : other = found :=
        Option.some.inj ((h.find?_eq_some hother hokey).symm.trans hsome)
      rfl
  · constructor
    · intro hsame
      have hkeys := s.keys_modifySubscription selector
        (fun sub => { sub with expectedIdlHash := hash }) fun _ => rfl
      rw [hsame, if_neg hany] at hkeys
      exact absurd (congrArg List.length hkeys) (by simp)
    · rintro ⟨sub, hsub, hkey, -⟩
      exact absurd (List.any_eq_true.2 ⟨sub, hsub, by simpa using hkey⟩) hany

theorem stored_begin_nil (ht : t.WellFormed) (hname : call.topicName = []) (a : UInt32) :
    ((t.beginSubscribe call).forgetSubscription call.topicName call.selector).stored a =
      if fnv1a32 call.topicName = a then
        ((t.topic (fnv1a32 call.topicName)).modifySubscription call.selector fun sub =>
          { sub with expectedIdlHash := call.expectedIdlHash }).stored
      else t.stored a := by
  have hunlisted : (t.beginSubscribe call).nameToId[call.topicName]? = none := by
    rw [nameToId_beginSubscribe, if_neg fun h => h.1 hname, hname]
    exact ht.nameToId_nil
  have hbegun : (t.beginSubscribe call).topic a = _ :=
    topic_modifyTopic_ensureTopic t (fnv1a32 call.topicName) a call.topicName _
  have hkept : (t.beginSubscribe call).forgetSubscription call.topicName call.selector =
      t.beginSubscribe call := by
    rw [forgetSubscription, hunlisted]
  rw [hkept, stored, hbegun]
  by_cases ha : fnv1a32 call.topicName = a
  · subst ha
    have hempty : call.topicName.isEmpty = true := by rw [hname]; rfl
    simp only [if_true, hempty, TopicState.stored, TopicState.modifySubscription,
      TopicState.ensureSubscription]
    split_ifs <;> rfl
  · simp only [if_neg ha, stored]

/-! ### The error exits -/

/-- Every error exit but the first takes the subscription back. -/
theorem subscribeTopic_failed {alloc : Allocator} {outcome : Except ErrorCode Bytes}
    (hfailed : (t.subscribeTopic alloc call outcome).1 ≠ none) :
    (t.subscribeTopic alloc call outcome).2 = if call.isInvalid then t
      else (t.beginSubscribe call).forgetSubscription call.topicName call.selector := by
  unfold subscribeTopic at hfailed ⊢
  by_cases hinvalid : call.isInvalid
  · simp only [if_pos hinvalid]
  simp only [if_neg hinvalid] at hfailed ⊢
  cases hpayload : topicRequestPayload alloc call.topicName call.selector with
  | none => rfl
  | some payload =>
    rw [hpayload] at hfailed
    cases hending : call.ending outcome with
    | failed code => rfl
    | mismatch => rfl
    | accepted =>
      rw [hending] at hfailed
      exact absurd rfl hfailed

/-- A `subscribeTopic` that returns an error leaves the stored subscriptions as they were exactly if the
    request was refused at once, or if nothing was stored that taking it back takes away. -/
theorem failed_subscribe_keeps_stored_iff (alloc : Allocator) (t : TopicRuntime) (ht : t.WellFormed)
    (call : SubscribeCall) (outcome : Except ErrorCode Bytes)
    (hfailed : (t.subscribeTopic alloc call outcome).1 ≠ none) :
    (∀ id, (t.subscribeTopic alloc call outcome).2.stored id = t.stored id) ↔
      call.isInvalid = true ∨ t.rollsBack call := by
  rw [subscribeTopic_failed hfailed]
  by_cases hinvalid : call.isInvalid
  · simp [hinvalid]
  rw [if_neg hinvalid, or_iff_right hinvalid, rollsBack]
  -- only the topic of the call can have changed
  have hlocal : ∀ {changed : UInt32 → List (Bytes × Subscription)} {new},
      (∀ a, changed a = if fnv1a32 call.topicName = a then new else t.stored a) →
        ((∀ a, changed a = t.stored a) ↔ new = t.stored (fnv1a32 call.topicName)) := by
    intro changed new hchanged
    constructor
    · intro hsame
      rw [← hsame, hchanged, if_pos rfl]
    intro hnew a
    rw [hchanged]
    split_ifs with ha
    · rw [hnew, ha]
    · rfl
  by_cases hname : call.topicName = []
  · rw [if_pos hname, hlocal fun a => stored_begin_nil ht hname a,
      ← (ht.keyed _).setHash_eq_self_iff call.selector call.expectedIdlHash, stored]
    unfold TopicState.stored
    rw [TopicState.name_modifySubscription]
    exact (map_injective_iff.2 fun _ _ h => (Prod.ext_iff.1 h).2).eq_iff
  · rw [if_neg hname, hlocal fun a => stored_forget_begin hname a]
    refine (map_eraseP_eq_iff _ _ _ _).trans ?_
    simp only [decide_eq_true_eq]

/-- An ordinary subscription. -/
def plainSubscribe (topicName : Bytes) (expectedIdlHash : UInt32) (callback : Nat) : SubscribeCall :=
  ⟨.init, topicName, expectedIdlHash, some callback, none⟩

/-- The first subscription of a runtime times out, and nothing is left of it. -/
theorem first_subscribe_times_out :
    (init.subscribeTopic .succeeds (plainSubscribe (ascii "t") 5 1) (.error .errTimeout)).1 =
        some .errTimeout ∧ ∀ id, (init.subscribeTopic .succeeds (plainSubscribe (ascii "t") 5 1)
        (.error .errTimeout)).2.stored id = [] := by
  have hfailed : (init.subscribeTopic .succeeds (plainSubscribe (ascii "t") 5 1)
      (.error .errTimeout)).1 = some .errTimeout := by
    decide +kernel
  have hkept := (failed_subscribe_keeps_stored_iff .succeeds init wellFormed_init
    (plainSubscribe (ascii "t") 5 1) (.error .errTimeout) (by rw [hfailed]; exact Option.some_ne_none _)).2
    (.inr fun sub hsub => absurd hsub not_mem_nil)
  exact ⟨hfailed, hkept⟩

/-- A second subscription for the same topic and selector is rejected as a duplicate, and the one that
    was accepted before is lost. -/
theorem rejected_duplicate_forgets :
    let first := init.subscribeTopic .succeeds (plainSubscribe (ascii "t") 5 1) (.ok [1])
    let second := first.2.subscribeTopic .succeeds (plainSubscribe (ascii "t") 6 2) (.ok [0])
    first.1 = none ∧ second.1 = some .errRegisterFailed ∧
      (first.2.stored (fnv1a32 (ascii "t"))).map (fun entry => (entry.1, entry.2.sourceCallback)) =
        [(ascii "t", some 1)] ∧
      second.2.stored (fnv1a32 (ascii "t")) = [] := by
  decide +kernel

end OmniBinder.TopicRuntime
