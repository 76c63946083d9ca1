/-
Module: OmniBinder.Proofs.PublishedTopics
Purpose: How many topics a service can publish.
Trusted boundary: none
Main exports: TopicTables.Publishes, published_topics_round_trip
-/
import Mathlib.Algebra.Order.BigOperators.Group.List
import Mathlib.Data.List.Perm.Subperm
import OmniBinder.Proofs.ListReplies

namespace OmniBinder.ServiceManager

open LittleEndian List

variable {m : TopicTables} {n t topic : Bytes}

/-! ### The topics of a service -/

namespace TopicTables

/-- Some instance of the service has a publisher for the topic. -/
def Publishes (m : TopicTables) (service topic : Bytes) : Prop :=
  ∃ i slot, m.slot? service topic i = some slot

/-- The entry that a slot is stored in. -/
theorem entry_of_slot (hkeyed : m.Keyed) {i : Bytes} {slot : PublisherSlot}
    (h : m.slot? n t i = some slot) :
    ∃ entry, (entryKey n t, entry) ∈ m.topics.toList ∧ entry.serviceName = n ∧ entry.topicName = t ∧
      entry.publishers.isEmpty = false := by
  rw [slot?] at h
  split at h
  · cases h
  next entry hentry =>
  obtain ⟨hservice, htopic⟩ := entryKey_inj (hkeyed _ entry hentry)
  have hmem : i ∈ entry.publishers := Std.TreeMap.mem_iff_isSome_getElem?.mpr (by rw [h]; rfl)
  exact ⟨entry, Table.mem_toList.mpr hentry, hservice.symm, htopic.symm,
    Std.TreeMap.isEmpty_eq_false_iff_exists_mem.mpr ⟨i, hmem⟩⟩

theorem mem_getPublishedTopics (hkeyed : m.Keyed) : t ∈ m.getPublishedTopics n ↔ m.Publishes n t := by
  unfold getPublishedTopics
  simp only [Std.TreeSet.mem_toList, mem_foldl_insert, Std.TreeSet.not_mem_emptyc, or_false,
    List.mem_map, List.mem_filter, Prod.exists]
  constructor
  · rintro ⟨ekey, entry, ⟨hentry, hselected⟩, rfl⟩
    have hentry := Table.mem_toList.mp hentry
    simp only [Bool.not_eq_true', decide_eq_true_eq] at hselected
    obtain ⟨rfl, hsome⟩ := hselected
    obtain ⟨i, hi⟩ := Std.TreeMap.isEmpty_eq_false_iff_exists_mem.mp hsome
    refine ⟨i, entry.publishers[i], ?_⟩
    rw [slot?, ← hkeyed ekey entry hentry, hentry]
    exact Std.TreeMap.getElem?_eq_some_getElem hi
  · rintro ⟨i, slot, hslot⟩
    obtain ⟨entry, hentry, hservice, htopic, hsome⟩ := entry_of_slot hkeyed hslot
    exact ⟨_, entry, ⟨hentry, by simp [hservice, hsome]⟩, htopic⟩

theorem sorted_getPublishedTopics (m : TopicTables) (n : Bytes) :
    (m.getPublishedTopics n).Pairwise fun a b => compare a b = .lt := by
  exact Std.TreeSet.ordered_toList

theorem nodup_getPublishedTopics (m : TopicTables) (n : Bytes) : (m.getPublishedTopics n).Nodup := by
  refine Std.TreeSet.distinct_toList.imp fun h heq => h ?_
  exact Std.LawfulEqCmp.compare_eq_iff_eq.mpr heq

/-- Every topic of the service but the one to be published is among the others. -/
theorem mem_otherPublications (hkeyed : m.Keyed) (h : m.Publishes n t) (hother : t ≠ topic) :
    t ∈ (m.otherPublications (entryKey n topic) n).map (·.topicName) := by
  obtain ⟨i, slot, h⟩ := h
  obtain ⟨entry, hentry, hservice, htopic, hsome⟩ := entry_of_slot hkeyed h
  have hkey : entryKey n t ≠ entryKey n topic := fun heq => hother (entryKey_inj heq).2
  refine List.mem_map.mpr ⟨entry, List.mem_map.mpr ⟨(entryKey n t, entry), ?_, rfl⟩, htopic⟩
  exact List.mem_filter.mpr ⟨hentry, by simp [hkey, hservice, hsome]⟩

/-- A publication that is made leaves room for the other topics of the service. -/
theorem registerPublisher_room {info : ServiceInfo} {fd : Int} {idlHash : UInt32}
    (h : (m.registerPublisher topic info fd idlHash).1 = true) :
    1 + (m.otherPublications (entryKey info.name topic) info.name).length ≤ maxPublishedTopics ∧
      topic.length + ((m.otherPublications (entryKey info.name topic) info.name).map
        (·.topicName.length)).sum ≤ maxPublishedTopicsBytes := by
  unfold registerPublisher at h
  simp only at h
  split_ifs at h with _ _ _ _ hroom
  simpa only [not_or, Nat.not_lt] using hroom

end TopicTables

/-! ### The limits -/

/-- Different topics within the limits of a list of published topics. -/
def TopicsWithin (topics : List Bytes) : Prop :=
  topics.length ≤ maxPublishedTopics ∧ (topics.map List.length).sum ≤ maxPublishedTopicsBytes

variable {topics : List Bytes}

theorem TopicsWithin.of_subset {topics' : List Bytes} (h : TopicsWithin topics')
    (hnodup : topics.Nodup) (hsubset : topics ⊆ topics') : TopicsWithin topics := by
  obtain ⟨kept, hperm, hsublist⟩ := subperm_of_subset hnodup hsubset
  constructor
  · exact hperm.length_eq ▸ hsublist.length_le.trans h.1
  · calc (topics.map List.length).sum
        = (kept.map List.length).sum := (hperm.map _).sum_eq.symm
      _ ≤ (topics'.map List.length).sum := (hsublist.map _).sum_le_sum fun _ _ => Nat.zero_le _
      _ ≤ maxPublishedTopicsBytes := h.2

variable {m' : TopicTables}

namespace TopicTables

/-- Every topic published has a valid name, and different topics of one service keep within the
    limits. -/
structure PublishedWithin (m : TopicTables) : Prop where
  keyed : m.Keyed
  valid : ∀ {n t}, m.Publishes n t → t ≠ [] ∧ t.length ≤ maxTopicNameLength
  within : ∀ {n} {topics : List Bytes}, topics.Nodup → (∀ t ∈ topics, m.Publishes n t) →
    TopicsWithin topics

theorem publishedWithin_init : init.PublishedWithin where
  keyed := indexed_init.keyed
  valid := by
    rintro n t ⟨i, slot, hslot⟩
    simp [init, slot?] at hslot
  within := by
    intro n topics _ hpublished
    cases topics with
    | nil => exact ⟨Nat.zero_le _, Nat.zero_le _⟩
    | cons topic topics =>
      obtain ⟨i, slot, hslot⟩ := hpublished topic (mem_cons_self ..)
      simp [init, slot?] at hslot

/-- The topics of the service after a publication are the new one and others that were there. -/
theorem PublishedWithin.registerPublisher (h : m.PublishedWithin) (topic : Bytes)
    (info : ServiceInfo) (fd : Int) (idlHash : UInt32) :
    (m.registerPublisher topic info fd idlHash).2.PublishedWithin := by
  rcases m.registerPublisher_cases topic info fd idlHash with hrefused | ⟨hmade, hpublished⟩
  · rw [hrefused]
    exact h
  set m' := (m.registerPublisher topic info fd idlHash).2
  have hbefore : ∀ {n t}, m'.Publishes n t → (info.name = n ∧ topic = t) ∨ m.Publishes n t := by
    rintro n t ⟨i, slot, hslot⟩
    rw [hpublished.slot_eq] at hslot
    split_ifs at hslot with hnew
    · exact .inl ⟨hnew.1, hnew.2.1⟩
    · exact .inr ⟨i, slot, hslot⟩
  refine ⟨hpublished.keyed h.keyed, fun hpub => ?_, fun {n topics} hnodup htopics => ?_⟩
  · rcases hbefore hpub with ⟨-, rfl⟩ | hold
    · exact hpublished.topic_valid
    · exact h.valid hold
  by_cases hname : info.name = n
  · subst hname
    obtain ⟨hlength, hbytes⟩ := registerPublisher_room hmade
    set others := m.otherPublications (entryKey info.name topic) info.name
    have hroom : TopicsWithin (topic :: others.map (·.topicName)) := by
      refine ⟨?_, ?_⟩
      · simpa [Nat.add_comm] using hlength
      · simpa [Function.comp_def] using hbytes
    refine hroom.of_subset hnodup fun t ht => ?_
    by_cases hsame : t = topic
    · exact hsame ▸ mem_cons_self ..
    · rcases hbefore (htopics t ht) with ⟨-, rfl⟩ | hold
      · exact absurd rfl hsame
      · exact mem_cons_of_mem _ (mem_otherPublications h.keyed hold hsame)
  · refine h.within (n := n) hnodup fun t ht => ?_
    rcases hbefore (htopics t ht) with ⟨hsame, -⟩ | hold
    · exact absurd hsame hname
    · exact hold

/-! ### The operations that publish nothing -/

/-- Nothing is published that was not published before. -/
structure Recedes (m m' : TopicTables) : Prop where
  keyed : m.Keyed → m'.Keyed
  publishes : ∀ {n t}, m'.Publishes n t → m.Publishes n t

theorem Recedes.refl (m : TopicTables) : Recedes m m := ⟨id, id⟩

theorem Recedes.trans {m'' : TopicTables} (h : Recedes m m') (h' : Recedes m' m'') : Recedes m m'' :=
  ⟨fun hkeyed => h'.keyed (h.keyed hkeyed), fun hpub => h.publishes (h'.publishes hpub)⟩

theorem Recedes.of_slots (hkeyed : m.Keyed → m'.Keyed)
    (hslots : ∀ n t i slot, m'.slot? n t i = some slot → ∃ slot', m.slot? n t i = some slot') :
    Recedes m m' := by
  refine ⟨hkeyed, ?_⟩
  rintro n t ⟨i, slot, hslot⟩
  exact ⟨i, hslots n t i slot hslot⟩

theorem PublishedWithin.of_recedes (h : m.PublishedWithin) (hless : Recedes m m') :
    m'.PublishedWithin where
  keyed := hless.keyed h.keyed
  valid hpub := h.valid (hless.publishes hpub)
  within hnodup htopics := h.within hnodup fun t ht => hless.publishes (htopics t ht)

theorem recedes_of_slots_eq (hkeyed : m.Keyed → m'.Keyed)
    (hslots : ∀ n t i, m'.slot? n t i = m.slot? n t i) : Recedes m m' :=
  .of_slots hkeyed fun n t i slot hslot => ⟨slot, (hslots n t i).symm.trans hslot⟩

theorem Recedes.of_prunes (h : Prunes m m') : Recedes m m' :=
  .of_slots h.keyed fun _ _ _ slot hslot => ⟨slot, h.slot_le hslot⟩

section
variable (m : TopicTables)

theorem recedes_addSubscriber (topic : Bytes) (selector : TopicSubscriptionFilter)
    (fd : Int) : Recedes m (m.addSubscriber topic selector fd).2 := by
  rcases m.addSubscriber_cases topic selector fd with ⟨-, hquiet⟩ | ⟨-, hmade⟩
  · exact .of_prunes hquiet.prunes
  · exact recedes_of_slots_eq hmade.keyed hmade.slot_eq

theorem recedes_removeSubscriber (topic : Bytes) (selector : TopicSubscriptionFilter)
    (fd : Int) : Recedes m (m.removeSubscriber topic selector fd) := by
  rcases m.removeSubscriber_cases topic selector fd with hsame | hdone
  · rw [hsame]
    exact .refl m
  · exact recedes_of_slots_eq hdone.keyed hdone.slot_eq

end

theorem recedes_dropSubscriptions (fd : Int) (m : TopicTables) (ekey : Bytes) :
    Recedes m (dropSubscriptions fd m ekey) := by
  unfold dropSubscriptions
  cases m.topics[ekey]? with
  | none => exact .refl m
  | some entry =>
    simp only
    by_cases habsent : (!entry.subscribers.hasKey fd) = true
    · rw [if_pos habsent]
      exact .refl m
    rw [if_neg habsent]
    refine .trans ?_ (.of_prunes (prunes_eraseEntryIfUnused _ ekey))
    refine recedes_of_slots_eq (fun hkeyed => ?_) fun n t i => ?_
    · exact hkeyed.modifySubscribers ekey fun entry => entry.subscribers.eraseKey fd
    · exact (samePublishers_modifySubscribers m ekey fun entry =>
        entry.subscribers.eraseKey fd).slot_eq n t i

theorem recedes_removeByFd (m : TopicTables) (fd : Int) : Recedes m (m.removeByFd fd) := by
  have hpub := dropped_publishers fd (m.fdPublications.values fd)
    { m with fdPublications := m.fdPublications.eraseKey fd }
  set m₁ := (m.fdPublications.values fd).foldl (dropPublisher fd)
    { m with fdPublications := m.fdPublications.eraseKey fd }
  have hsub := dropped_subscribers fd (m₁.fdSubscriptions.values fd)
    { m₁ with fdSubscriptions := m₁.fdSubscriptions.eraseKey fd }
  refine .of_slots (fun hkeyed => hsub.keyed (hpub.keyed hkeyed)) fun n t i slot hslot => ?_
  have hslot := ((hsub.slot_eq n t i).trans (hpub.slot_eq n t i)).symm.trans hslot
  split_ifs at hslot
  · exact ⟨slot, (Option.filter_eq_some_iff.mp hslot).1⟩
  · exact ⟨slot, hslot⟩

theorem recedes_setIdlHash (m : TopicTables) (topic : Bytes) (idlHash : UInt32) :
    Recedes m (m.setIdlHash topic idlHash) := by
  unfold setIdlHash
  split
  · exact .refl m
  next ekey _ _ =>
  have hnames : ∀ entry, (setFirstHash idlHash entry).serviceName = entry.serviceName ∧
      (setFirstHash idlHash entry).topicName = entry.topicName := by
    intro entry
    unfold setFirstHash
    split
    · exact ⟨rfl, rfl⟩
    · exact ⟨rfl, rfl⟩
  refine .of_slots (fun hkeyed => hkeyed.modifyEntry ekey hnames) fun n t i slot hslot => ?_
  have hslot := (lookup_modifyEntry ekey).symm.trans hslot
  split_ifs at hslot with hkey
  · rw [slot?]
    unfold lookup at hslot
    cases hentry : m.topics[entryKey n t]? with
    | none =>
      rw [hentry] at hslot
      cases hslot
    | some entry =>
      simp only [hentry, Function.comp_apply, setFirstHash] at hslot
      split at hslot
      · exact ⟨slot, hslot⟩
      next first old hfirst =>
      rcases Table.of_insert hslot with ⟨rfl, -⟩ | ⟨-, hslot⟩
      · exact ⟨old, Table.mem_toList.mp (mem_of_mem_head? hfirst)⟩
      · exact ⟨slot, hslot⟩
  · exact ⟨slot, hslot⟩

theorem PublishedWithin.perform (h : m.PublishedWithin) (operation : TopicOperation) :
    (m.perform operation).PublishedWithin := by
  cases operation with
  | registerPublisher topic info fd idlHash => exact h.registerPublisher topic info fd idlHash
  | removeAllPublishers topic =>
    refine h.of_recedes ?_
    rw [TopicTables.perform, removeAllPublishers]
    split_ifs
    · exact .refl m
    · exact .of_prunes (prunes_removePublisherSlots m topic (-1) false)
  | removePublisher topic fd => exact h.of_recedes (.of_prunes (prunes_removePublisher m topic fd))
  | addSubscriber topic selector fd => exact h.of_recedes (recedes_addSubscriber m topic selector fd)
  | removeAllSubscriptions topic fd =>
    refine h.of_recedes ?_
    rw [TopicTables.perform, removeAllSubscriptions]
    split_ifs
    · exact .refl m
    · exact forEachEntry_rel Recedes.refl Recedes.trans _ (recedes_dropSubscriptions fd) m
  | removeSubscriber topic selector fd =>
    exact h.of_recedes (recedes_removeSubscriber m topic selector fd)
  | removeByFd fd => exact h.of_recedes (recedes_removeByFd m fd)
  | removePublishersByService service fd =>
    exact h.of_recedes (.of_prunes (prunes_removePublishersByService m service fd))
  | setIdlHash topic idlHash => exact h.of_recedes (recedes_setIdlHash m topic idlHash)

theorem PublishedWithin.runOperations (h : m.PublishedWithin) (operations : List TopicOperation) :
    (m.runOperations operations).PublishedWithin := by
  induction operations generalizing m with
  | nil => exact h
  | cons operation operations ih => exact ih (h.perform operation)

end TopicTables

variable {counted : Nat}

/-! ### The reply -/

/-- Valid topics that stay within the bytes left pass the check of the reply. -/
theorem publishedTopicsFit_of_within (hvalid : ∀ t ∈ topics, t ≠ [] ∧ t.length ≤ maxTopicNameLength)
    (hbytes : counted + (topics.map List.length).sum ≤ maxPublishedTopicsBytes) :
    publishedTopicsFit topics counted = true := by
  induction topics generalizing counted with
  | nil => rfl
  | cons topic topics ih =>
    obtain ⟨hne, hlength⟩ := hvalid topic (mem_cons_self ..)
    rw [map_cons, sum_cons] at hbytes
    have hok : ¬ (topic.isEmpty ∨ topic.length > maxTopicNameLength
        ∨ topic.length > maxPublishedTopicsBytes - counted) := by
      rw [List.isEmpty_iff, not_or, not_or]
      exact ⟨hne, by omega, by omega⟩
    rw [publishedTopicsFit, if_neg hok]
    exact ih (fun t ht => hvalid t (mem_cons_of_mem _ ht)) (by omega)

/-- What is listed of a service can be written, and is not too long for a frame. -/
theorem TopicTables.PublishedWithin.reply (h : m.PublishedWithin) (n : Bytes) :
    (Outgoing.queryPublishedTopicsReply true (m.getPublishedTopics n)).Countable ∧
      (Outgoing.queryPublishedTopicsReply true (m.getPublishedTopics n)).bodySize ≤ payloadRoom := by
  have hpublished : ∀ t ∈ m.getPublishedTopics n, m.Publishes n t := fun t ht =>
    (mem_getPublishedTopics h.keyed).mp ht
  obtain ⟨hlength, hbytes⟩ := h.within (m.nodup_getPublishedTopics n) hpublished
  have hfit := publishedTopicsFit_of_within (fun t ht => h.valid (hpublished t ht))
    ((Nat.zero_add _).trans_le hbytes)
  refine ⟨⟨nofun, hlength, hfit⟩, ?_⟩
  simp only [Outgoing.bodySize, sum_stringSize, payloadRoom, maxMessageSize, messageHeaderSize,
    maxPublishedTopics, maxPublishedTopicsBytes] at hlength hbytes ⊢
  omega

/-- After any operations on the topic manager, the list of the topics that a service publishes at the
    moment, sorted and each topic once, is accepted by the serializer of the reply, is read back as it
    is with nothing left, and makes a reply that can be sent. -/
theorem published_topics_round_trip (operations : List TopicOperation) (service : Bytes) :
    let m := TopicTables.init.runOperations operations
    let topics := m.getPublishedTopics service
    (∀ topic, topic ∈ topics ↔ m.Publishes service topic) ∧
      topics.Pairwise (fun a b => compare a b = .lt) ∧
      (∃ buf, serializePublishedTopicsReply .succeeds true topics Buffer.init = (true, buf) ∧
        deserializePublishedTopicsReply buf.bytes = some ((true, topics), [])) ∧
      ∀ sequence, (Outgoing.queryPublishedTopicsReply true topics).Sendable sequence := by
  intro m topics
  have hwithin : m.PublishedWithin := TopicTables.publishedWithin_init.runOperations operations
  obtain ⟨hcount, hsize⟩ := hwithin.reply service
  have hroom : Buffer.init.writePos + (topicsReplyLayout true topics).wire.length ≤ sizeMax / 2 := by
    rw [length_topicsReplyLayout, if_pos rfl]
    exact (Nat.zero_add _).trans_le (hsize.trans (by decide))
  obtain ⟨buf, hwritten, -, hbytes⟩ := serializePublishedTopicsReply_appends hcount rfl hroom
  refine ⟨fun topic => TopicTables.mem_getPublishedTopics hwithin.keyed,
    m.sorted_getPublishedTopics service, ⟨buf, hwritten, ?_⟩, fun sequence => ?_⟩
  · rw [hbytes]
    exact deserializePublishedTopicsReply_layout hcount
  · exact sendable_of_size _ rfl hcount hsize sequence

end OmniBinder.ServiceManager
