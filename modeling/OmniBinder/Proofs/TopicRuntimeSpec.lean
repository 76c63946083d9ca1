/-
Module: OmniBinder.Proofs.TopicRuntimeSpec
Purpose: What each operation of the topic table does to every topic, as an equation for the topic it
  leaves behind. A topic that nothing uses any more is erased, which only its name can show.
Trusted boundary: none
Main exports: TopicState.settle, topic_forEachTopic
-/
import OmniBinder.Runtime.TopicRuntime

namespace OmniBinder.TopicRuntime

open List

variable {s : TopicState} {t' : TopicRuntime} {f : TopicState → TopicState} {other : Bytes}

/-- What is left of a topic after a change: nothing, if it is unused. -/
def TopicState.settle (s : TopicState) : TopicState := if s.isUnused then .init else s

theorem TopicState.isUnused_iff :
    s.isUnused = true ↔ s.subscriptions = [] ∧ s.published = false ∧ s.tcpSubscribers = [] ∧
      s.shmSubscribers = [] := by
  simp [isUnused, and_assoc]

section
variable (s : TopicState)

@[simp]
theorem TopicState.settle_kept : s.settle.subscriptions = s.subscriptions ∧
    s.settle.published = s.published ∧ s.settle.tcpSubscribers = s.tcpSubscribers ∧
      s.settle.shmSubscribers = s.shmSubscribers := by
  unfold settle
  split_ifs with h
  · simp [isUnused_iff.1 h, init]
  · simp

/-- A topic that is used keeps everything. -/
theorem TopicState.settle_of_used (h : ¬ s.isUnused = true) : s.settle = s := if_neg h

/-- The topic has a subscription or is published, so that its name leads to it. -/
def TopicState.Active : Prop := s.subscriptions ≠ [] ∨ s.published = true

instance : Decidable s.Active := inferInstanceAs (Decidable (_ ∨ _))

variable {s}

theorem TopicState.Active.used (h : s.Active) : ¬ s.isUnused = true := by
  intro hunused
  obtain ⟨hsubscriptions, hpublished, -⟩ := isUnused_iff.1 hunused
  rcases h with h | h
  · exact h hsubscriptions
  · rw [hpublished] at h
    cases h

end

/-! ### What is left of each topic -/

variable (t : TopicRuntime)

theorem topic_of_some {t : TopicRuntime} {id : UInt32} (h : t.topics[id]? = some s) :
    t.topic id = s := by
  rw [topic, h]
  rfl

theorem topic_ensureTopic (id a : UInt32) (name : Bytes) :
    (t.ensureTopic id name).topic a =
      if id = a then
        { t.topic a with id, name := if name.isEmpty then (t.topic a).name else name }
      else t.topic a := by
  have hinsert : ∀ s : TopicState, ((t.topics.insert id s)[a]?).getD .init =
      if id = a then s else t.topic a := by
    intro s
    rw [Table.getElem?_insert]
    by_cases ha : id = a
    · simp [ha]
    · simp [ha, topic]
  rw [ensureTopic]
  by_cases ha : id = a
  · subst ha
    rw [if_pos rfl]
    split_ifs <;> exact (hinsert _).trans (if_pos rfl)
  · rw [if_neg ha]
    split_ifs <;> exact (hinsert _).trans (if_neg ha)

/-- Applied to a topic that is in the table, or to a change that does nothing to one that is not. -/
theorem topic_modifyTopic (id a : UInt32) (f : TopicState → TopicState)
    (h : t.topics[id]? = none → f .init = .init) :
    (t.modifyTopic id f).topic a = if id = a then f (t.topic a) else t.topic a := by
  unfold modifyTopic topic
  rw [Table.getElem?_adjust]
  split_ifs with ha
  · subst ha
    cases hid : t.topics[id]? with
    | none => exact (h hid).symm
    | some s => rfl
  · rfl

theorem topics_ensureTopic_self (id : UInt32) (name : Bytes) :
    (t.ensureTopic id name).topics[id]? ≠ none := by
  unfold ensureTopic
  split_ifs <;> simp

/-- A topic that is made sure of and then changed. -/
theorem topic_modifyTopic_ensureTopic (id a : UInt32) (name : Bytes) (f : TopicState → TopicState) :
    ((t.ensureTopic id name).modifyTopic id f).topic a =
      if id = a then
        f { t.topic a with id, name := if name.isEmpty then (t.topic a).name else name }
      else t.topic a := by
  rw [topic_modifyTopic _ _ _ _ fun hnone => absurd hnone (topics_ensureTopic_self t id name),
    topic_ensureTopic]
  split_ifs <;> rfl

theorem topics_eraseTopicIfUnused (id a : UInt32) : (t.eraseTopicIfUnused id).topics[a]? =
      if id = a then t.topics[a]?.filter (!·.isUnused) else t.topics[a]? := by
  unfold eraseTopicIfUnused
  by_cases ha : id = a
  · subst ha
    cases hid : t.topics[id]? with
    | none => simp [hid]
    | some s =>
      by_cases hunused : s.isUnused
      · simp [hunused, Option.filter]
      · simp [hunused, hid, Option.filter]
  · rw [if_neg ha]
    cases t.topics[id]? with
    | none => rfl
    | some s =>
      by_cases hunused : s.isUnused
      · simp [hunused, Table.getElem?_erase_of_ne _ ha]
      · simp [hunused]

theorem topic_eraseTopicIfUnused (id a : UInt32) :
    (t.eraseTopicIfUnused id).topic a = if id = a then (t.topic a).settle else t.topic a := by
  rw [topic, topics_eraseTopicIfUnused]
  split_ifs
  · unfold topic TopicState.settle
    cases t.topics[a]? with
    | none => rfl
    | some s => cases hunused : s.isUnused <;> simp [hunused, Option.filter]
  · rfl

/-- The name under which a topic was reached goes also if subscribers are left. -/
theorem dropNameIfUnused_eq (name : Bytes) (id : UInt32) : t.dropNameIfUnused name id =
      eraseTopicIfUnused { t with
        nameToId := if (t.topic id).Active then t.nameToId else t.nameToId.erase name } id := by
  unfold dropNameIfUnused topic
  cases hid : t.topics[id]? with
  | none => simp [eraseTopicIfUnused, hid, TopicState.Active, TopicState.init]
  | some s =>
    by_cases hactive : s.Active
    · have hkept : ¬ (s.subscriptions.isEmpty = true ∧ (!s.published) = true) := by
        simpa [TopicState.Active, imp_iff_not_or] using hactive
      simp only [if_neg hkept, Option.getD_some, if_pos hactive]
    · have hgone : s.subscriptions.isEmpty = true ∧ (!s.published) = true := by
        simpa [TopicState.Active] using hactive
      simp only [if_pos hgone, Option.getD_some, if_neg hactive]

theorem topic_dropNameIfUnused (name : Bytes) (id a : UInt32) :
    (t.dropNameIfUnused name id).topic a = if id = a then (t.topic a).settle else t.topic a := by
  rw [dropNameIfUnused_eq, topic_eraseTopicIfUnused]
  rfl

/-- The name of a topic goes when the topic is erased. -/
theorem nameToId_eraseTopicIfUnused (id : UInt32) (name : Bytes) :
    (t.eraseTopicIfUnused id).nameToId[name]? =
      if (t.topic id).isUnused ∧ (t.topic id).name = name ∧ name ≠ [] then none
      else t.nameToId[name]? := by
  unfold eraseTopicIfUnused topic
  cases t.topics[id]? with
  | none => exact (if_neg fun ⟨_, hname, hne⟩ => hne hname.symm).symm
  | some s =>
    by_cases hunused : s.isUnused
    · by_cases hname : s.name = []
      · simp [hunused, hname, eq_comm]
      · by_cases hsame : s.name = name
        · simp [hunused, ← hsame, hname]
        · simp [hunused, hname, hsame, Table.getElem?_erase_of_ne]
    · simp [hunused]

theorem topic_forgetSubscription (name : Bytes) (selector : SubscriptionSelector) (a : UInt32) :
    (t.forgetSubscription name selector).topic a =
      if t.nameToId[name]? = some a then
        TopicState.settle { t.topic a with
          subscriptions := (t.topic a).subscriptions.eraseP (·.key = selector.key) }
      else t.topic a := by
  unfold forgetSubscription
  cases hname : t.nameToId[name]? with
  | none => simp
  | some id =>
    by_cases hid : t.topics.contains id
    · simp only [if_pos hid, Option.some.injEq]
      rw [topic_dropNameIfUnused, topic_modifyTopic _ _ _ _ fun _ => rfl]
      split_ifs <;> rfl
    · simp only [if_neg hid, Option.some.injEq]
      split_ifs with ha
      · subst ha
        have hnone : t.topic id = .init := by
          rw [topic, Std.TreeMap.getElem?_eq_none (by simpa using hid)]
          rfl
        rw [hnone]
        rfl
      · rfl

/-- A topic after its publication is taken back. -/
def TopicState.unpublished (s : TopicState) : TopicState :=
  TopicState.settle { s with
    published := false
    ownerService := []
    publishedHash := 0
    tcpSubscribers := []
    shmSubscribers := [] }

theorem topic_forgetPublishedTopic (name : Bytes) (a : UInt32) : (t.forgetPublishedTopic name).topic a =
      if t.nameToId[name]? = some a ∧ (t.topic a).published then (t.topic a).unpublished
      else t.topic a := by
  unfold forgetPublishedTopic
  cases hname : t.nameToId[name]? with
  | none => simp
  | some id =>
    simp only [Option.some.injEq]
    by_cases hpublished : (t.topic id).published
    · rw [if_pos hpublished, topic_dropNameIfUnused, topic_modifyTopic _ _ _ _ fun _ => rfl]
      by_cases ha : id = a
      · subst ha
        simp only [if_true, hpublished, and_self, TopicState.unpublished]
      · simp [ha]
    · rw [if_neg hpublished]
      split_ifs with ha
      · exact absurd ha.2 (ha.1 ▸ hpublished)
      · rfl

theorem topic_foldl_settle (f : TopicState → TopicState) (hf : f .init = .init) (ids : List UInt32)
    (hids : ids.Nodup) (a : UInt32) :
    (ids.foldl (fun t id => (t.modifyTopic id f).eraseTopicIfUnused id) t).topic a =
      if a ∈ ids then (f (t.topic a)).settle else t.topic a := by
  induction ids generalizing t with
  | nil => simp
  | cons id ids ih =>
    obtain ⟨hid, hids⟩ := nodup_cons.1 hids
    rw [foldl_cons, ih _ hids, topic_eraseTopicIfUnused, topic_modifyTopic _ _ _ _ fun _ => hf]
    by_cases ha : id = a
    · subst ha
      simp [hid]
    · simp [ha, Ne.symm ha]

theorem topic_forEachTopic (f : TopicState → TopicState) (hf : f .init = .init) (a : UInt32) :
    (t.forEachTopic f).topic a = (f (t.topic a)).settle := by
  have hkeys : t.topics.keys.Nodup :=
    (Std.TreeMap.distinct_keys (t := t.topics)).imp fun {_ _} hne heq =>
      hne (Std.LawfulEqCmp.compare_eq_iff_eq.2 heq)
  rw [forEachTopic, topic_foldl_settle t f hf _ hkeys]
  split_ifs with ha
  · rfl
  have hnone : t.topic a = .init := by
    rw [topic, Std.TreeMap.getElem?_eq_none fun hmem => ha (Std.TreeMap.mem_keys.2 hmem)]
    rfl
  rw [hnone, hf]
  rfl

variable {α : Type}

/-! ### The subscriptions of a topic -/

section
variable {selector : SubscriptionSelector} {f : Subscription → Subscription}

/-- Changing the first match in place and erasing the first match is erasing it. -/
theorem eraseP_modify_findIdx (p : α → Bool) (f : α → α) (hf : ∀ x, p (f x) = p x) (l : List α) :
    (l.modify (l.findIdx p) f).eraseP p = l.eraseP p := by
  induction l with
  | nil => rfl
  | cons x l ih =>
    by_cases hx : p x
    · simp [findIdx_cons, hx, hf]
    · simp [findIdx_cons, hx, ih]

/-- What the first match is changed to satisfies whatever all others satisfy. -/
theorem mem_modify_findIdx {p : α → Bool} {f : α → α} {l : List α} {y : α}
    (h : y ∈ l.modify (l.findIdx p) f) : y ∈ l ∨ ∃ x ∈ l, p x = true ∧ y = f x := by
  induction l with
  | nil => cases h
  | cons x l ih =>
    by_cases hx : p x
    · rw [findIdx_cons, hx] at h
      rcases mem_cons.1 h with rfl | h
      · exact .inr ⟨x, mem_cons_self, hx, rfl⟩
      · exact .inl (mem_cons_of_mem x h)
    · rw [findIdx_cons, Bool.eq_false_iff.2 hx] at h
      rcases mem_cons.1 h with rfl | h
      · exact .inl mem_cons_self
      · rcases ih h with h | ⟨z, hz, hpz, hyz⟩
        · exact .inl (mem_cons_of_mem x h)
        · exact .inr ⟨z, mem_cons_of_mem x hz, hpz, hyz⟩

theorem map_modify_findIdx {β : Type} (g : α → β) (p : α → Bool) (f : α → α)
    (hf : ∀ x, g (f x) = g x) (l : List α) : (l.modify (l.findIdx p) f).map g = l.map g := by
  induction l with
  | nil => rfl
  | cons x l ih =>
    by_cases hx : p x
    · simp [findIdx_cons, hx, hf]
    · simp [findIdx_cons, hx, ih]

section
variable (s : TopicState) (selector : SubscriptionSelector)

theorem TopicState.subscriptions_ensureSubscription : (s.ensureSubscription selector).subscriptions =
      if s.subscriptions.any (·.key = selector.key) then s.subscriptions
      else s.subscriptions ++ [Subscription.init selector] := by
  unfold ensureSubscription
  split_ifs <;> rfl

/-- A subscription that is made sure of and then erased leaves what erasing it leaves. -/
theorem TopicState.eraseP_modifySubscription
    (f : Subscription → Subscription) (hf : ∀ sub, (f sub).key = sub.key) :
    (s.modifySubscription selector f).subscriptions.eraseP (·.key = selector.key) =
      s.subscriptions.eraseP (·.key = selector.key) := by
  have hkey : ∀ sub, decide ((f sub).key = selector.key) = decide (sub.key = selector.key) :=
    fun sub => by rw [hf]
  rw [modifySubscription, eraseP_modify_findIdx _ _ hkey, subscriptions_ensureSubscription]
  split_ifs with hany
  · rfl
  · have hnone : ∀ sub ∈ s.subscriptions, ¬ decide (sub.key = selector.key) = true := by
      simpa using hany
    rw [eraseP_append_right _ hnone, eraseP_of_forall_not hnone]
    simp [Subscription.init]

theorem TopicState.keys_modifySubscription
    (f : Subscription → Subscription) (hf : ∀ sub, (f sub).key = sub.key) :
    (s.modifySubscription selector f).subscriptions.map (·.key) =
      if s.subscriptions.any (·.key = selector.key) then s.subscriptions.map (·.key)
      else s.subscriptions.map (·.key) ++ [selector.key] := by
  rw [modifySubscription, map_modify_findIdx _ _ _ hf, subscriptions_ensureSubscription]
  split_ifs
  · rfl
  · rw [map_append]
    rfl

end

/-- The keys of the subscriptions of a topic are those of their selectors, and no two are the same. -/
structure TopicState.Keyed (s : TopicState) : Prop where
  keyed : ∀ sub ∈ s.subscriptions, sub.key = sub.selector.key
  distinct : (s.subscriptions.map (·.key)).Nodup

theorem TopicState.keyed_init : TopicState.init.Keyed where
  keyed _ h := by cases h
  distinct := nodup_nil

theorem TopicState.Keyed.modifySubscription (h : s.Keyed)
    (hkey : ∀ sub, (f sub).key = sub.key) (hselector : ∀ sub, (f sub).selector = sub.selector) :
    (s.modifySubscription selector f).Keyed := by
  have hensured : ∀ sub ∈ (s.ensureSubscription selector).subscriptions,
      sub.key = sub.selector.key := by
    intro sub hsub
    rw [subscriptions_ensureSubscription] at hsub
    split_ifs at hsub
    · exact h.keyed sub hsub
    · rcases mem_append.1 hsub with hsub | hsub
      · exact h.keyed sub hsub
      · rw [mem_singleton.1 hsub]
        rfl
  constructor
  · intro sub hsub
    rcases mem_modify_findIdx hsub with hsub | ⟨old, hold, -, rfl⟩
    · exact hensured sub hsub
    · rw [hkey, hselector]
      exact hensured old hold
  · rw [keys_modifySubscription s selector f hkey]
    split_ifs with hany
    · exact h.distinct
    · have hnew : selector.key ∉ s.subscriptions.map (·.key) := by
        simpa using hany
      exact nodup_append.2 ⟨h.distinct, nodup_cons.2 ⟨not_mem_nil, nodup_nil⟩, fun a ha b hb heq =>
        hnew (mem_singleton.1 hb ▸ heq ▸ ha)⟩

theorem TopicState.Keyed.of_sublist {s' : TopicState} (h : s.Keyed)
    (hsub : s'.subscriptions.Sublist s.subscriptions) : s'.Keyed :=
  ⟨fun sub hmem => h.keyed sub (hsub.subset hmem), h.distinct.sublist (hsub.map _)⟩

end

/-! ### The table by name -/

/-- The name of a topic and the names that lead to it hash to its id. -/
structure WellFormed (t : TopicRuntime) : Prop where
  named : ∀ id, (t.topic id).name ≠ [] → fnv1a32 (t.topic id).name = id
  indexed : ∀ (name : Bytes) (id : UInt32), t.nameToId[name]? = some id →
    name ≠ [] ∧ fnv1a32 name = id
  keyed : ∀ id, (t.topic id).Keyed

theorem wellFormed_init : init.WellFormed where
  named _ h := absurd rfl h
  indexed _ _ h := by cases h
  keyed _ := TopicState.keyed_init

variable {t}

theorem WellFormed.nameToId_nil (h : t.WellFormed) : t.nameToId[([] : Bytes)]? = none := by
  cases hname : t.nameToId[([] : Bytes)]? with
  | none => rfl
  | some id => exact absurd rfl (h.indexed [] id hname).1

/-- No name is entered, and every topic keeps its name or loses it. -/
theorem WellFormed.of_names (h : t.WellFormed)
    (hnames : ∀ (name : Bytes) (id : UInt32), t'.nameToId[name]? = some id →
      t.nameToId[name]? = some id)
    (hname : ∀ id, (t'.topic id).name = [] ∨ (t'.topic id).name = (t.topic id).name)
    (hkeyed : ∀ id, (t'.topic id).Keyed) : t'.WellFormed := by
  refine ⟨fun id hid => ?_, fun name id hid => h.indexed name id (hnames name id hid), hkeyed⟩
  rcases hname id with hnone | hsame
  · exact absurd hnone hid
  · rw [hsame] at hid ⊢
    exact h.named id hid

variable {id : UInt32} {name : Bytes}

theorem WellFormed.ensureTopic (h : t.WellFormed) (hid : name ≠ [] → fnv1a32 name = id) :
    (t.ensureTopic id name).WellFormed := by
  refine ⟨fun a ha => ?_, fun n a hn => ?_, fun a => ?_⟩
  · rw [topic_ensureTopic] at ha ⊢
    split_ifs at ha ⊢ with heq hname
    · exact h.named a ha
    · exact (hid (by simpa using hname)).trans heq
    · exact h.named a ha
  · unfold TopicRuntime.ensureTopic at hn
    by_cases hname : name = []
    · subst hname
      exact h.indexed n a hn
    have hfalse : ¬ name.isEmpty = true := by simpa using hname
    rw [if_neg hfalse] at hn
    rcases Table.of_insert hn with ⟨rfl, rfl⟩ | ⟨-, hn⟩
    · exact ⟨hname, hid hname⟩
    · exact h.indexed n a hn
  · rw [topic_ensureTopic]
    by_cases heq : id = a
    · rw [if_pos heq]
      exact (h.keyed a).of_sublist (List.Sublist.refl _)
    · rw [if_neg heq]
      exact h.keyed a

/-- A change that keeps the name. -/
theorem WellFormed.modifyTopic (h : t.WellFormed)
    (hthere : t.topics[id]? = none → f .init = .init)
    (hname : (f (t.topic id)).name = (t.topic id).name) (hkeyed : (f (t.topic id)).Keyed) :
    (t.modifyTopic id f).WellFormed := by
  refine h.of_names (fun _ _ hn => hn) (fun a => ?_) fun a => ?_
  · rw [topic_modifyTopic _ _ _ _ hthere]
    split_ifs with ha
    · exact .inr (ha ▸ hname)
    · exact .inr rfl
  · rw [topic_modifyTopic _ _ _ _ hthere]
    split_ifs with ha
    · exact ha ▸ hkeyed
    · exact h.keyed a

variable {a : UInt32}

theorem of_nameToId_eraseTopicIfUnused (h : (t.eraseTopicIfUnused id).nameToId[name]? = some a) :
    t.nameToId[name]? = some a := by
  rw [nameToId_eraseTopicIfUnused] at h
  split_ifs at h
  exact h

theorem WellFormed.eraseTopicIfUnused (h : t.WellFormed) (id : UInt32) :
    (t.eraseTopicIfUnused id).WellFormed := by
  refine h.of_names (fun _ _ => of_nameToId_eraseTopicIfUnused) (fun a => ?_) fun a => ?_
  · rw [topic_eraseTopicIfUnused, TopicState.settle]
    split_ifs
    · exact .inl rfl
    · exact .inr rfl
    · exact .inr rfl
  · rw [topic_eraseTopicIfUnused]
    split_ifs
    · refine (h.keyed a).of_sublist ?_
      rw [(TopicState.settle_kept _).1]
    · exact h.keyed a

theorem WellFormed.dropNameIfUnused (h : t.WellFormed) (name : Bytes) (id : UInt32) :
    (t.dropNameIfUnused name id).WellFormed := by
  rw [dropNameIfUnused_eq]
  refine WellFormed.eraseTopicIfUnused (h.of_names (fun n a hn => ?_) (fun _ => ?_) ?_) id
  · dsimp only at hn
    split_ifs at hn
    · exact hn
    · exact (Table.of_erase hn).2
  · exact .inr rfl
  · exact h.keyed

/-! ### The operations -/

/-- A topic that is made sure of and then changed under its name. -/
theorem WellFormed.modifyEnsured (h : t.WellFormed)
    (hid : name ≠ [] → fnv1a32 name = id) (hname : ∀ s, (f s).name = s.name)
    (hkeyed : ∀ s : TopicState, s.Keyed → (f s).Keyed) :
    ((t.ensureTopic id name).modifyTopic id f).WellFormed := by
  have hensured := h.ensureTopic hid
  exact hensured.modifyTopic (fun hnone => absurd hnone (topics_ensureTopic_self t id name))
    (hname _) (hkeyed _ (hensured.keyed id))

theorem TopicState.name_modifySubscription (s : TopicState) (selector : SubscriptionSelector)
    (f : Subscription → Subscription) : (s.modifySubscription selector f).name = s.name := by
  simp only [modifySubscription, ensureSubscription]
  split_ifs <;> rfl

/-! ### The calls -/

/-- What a loop over all topics does to each: the subscribers may change, and nothing is made of a
    topic that is not there. -/
structure ChangesSubscribers (f : TopicState → TopicState) : Prop where
  init : f .init = .init
  subscriptions : ∀ s, (f s).subscriptions = s.subscriptions
  name : ∀ s, (f s).name = s.name
  published : ∀ s, (f s).published = s.published
  owner : ∀ s, (f s).ownerService = s.ownerService

theorem ChangesSubscribers.keyed (hf : ChangesSubscribers f) (h : s.Keyed) : (f s).Keyed :=
  h.of_sublist (by rw [hf.subscriptions])

theorem changesSubscribers_tcp (keep : Int → Bool) :
    ChangesSubscribers fun s => { s with tcpSubscribers := s.tcpSubscribers.filter keep } :=
  ⟨rfl, fun _ => rfl, fun _ => rfl, fun _ => rfl, fun _ => rfl⟩

theorem changesSubscribers_shm (keep : ShmSubscriber → Bool) :
    ChangesSubscribers fun s => { s with shmSubscribers := s.shmSubscribers.filter keep } :=
  ⟨rfl, fun _ => rfl, fun _ => rfl, fun _ => rfl, fun _ => rfl⟩

/-- A change that takes something from a topic. -/
structure Reduces (f : TopicState → TopicState) : Prop where
  init : f .init = .init
  name : ∀ s, (f s).name = s.name
  subscriptions : ∀ s, (f s).subscriptions.Sublist s.subscriptions

section
variable {P : TopicRuntime → Prop} (h : P t)
  (hdropped : ∀ {id f}, t.nameToId[name]? = some id → Reduces f →
    P ((t.modifyTopic id f).dropNameIfUnused name id))
include h hdropped

theorem of_forgetSubscription (selector : SubscriptionSelector) : P (t.forgetSubscription name selector) := by
  unfold TopicRuntime.forgetSubscription
  cases hid : t.nameToId[name]? with
  | none => exact h
  | some id =>
    dsimp only
    split_ifs
    · exact hdropped hid ⟨rfl, fun _ => rfl, fun _ => eraseP_sublist⟩
    · exact h

theorem of_forgetPublishedTopic : P (t.forgetPublishedTopic name) := by
  unfold TopicRuntime.forgetPublishedTopic
  cases hid : t.nameToId[name]? with
  | none => exact h
  | some id =>
    dsimp only
    split_ifs
    · exact hdropped hid ⟨rfl, fun _ => rfl, fun _ => List.Sublist.refl _⟩
    · exact h

end

/-- A property that the changes keep which the calls are made of: those that name a topic if the name is
    allowed, and the removal of one connection if it leaves the topic as it should. -/
structure CallRule (allowed : Bytes → Prop) (leaves : TopicRuntime → UInt32 → Int → Prop)
    (P : TopicRuntime → Prop) : Prop where
  subscribed : ∀ {t name selector} {f : Subscription → Subscription}, P t → allowed name →
    (∀ sub, (f sub).key = sub.key) → (∀ sub, (f sub).selector = sub.selector) →
      P ((t.ensureTopic (fnv1a32 name) name).modifyTopic (fnv1a32 name)
        fun s => s.modifySubscription selector f)
  published : ∀ {t name owner idlHash}, P t → allowed name →
    P (t.rememberPublishedTopic name (fnv1a32 name) owner idlHash)
  dropped : ∀ {t name id f}, P t → t.nameToId[name]? = some id → Reduces f →
    P ((t.modifyTopic id f).dropNameIfUnused name id)
  swept : ∀ {t id f}, P t → ChangesSubscribers f → P ((t.modifyTopic id f).eraseTopicIfUnused id)
  entered : ∀ {t id} {f : TopicState → TopicState}, P t → (∀ s, (f s).name = s.name ∧
    (f s).subscriptions = s.subscriptions ∧ (f s).published = s.published ∧ ¬ (f s).isUnused = true) →
      P ((t.ensureTopic id []).modifyTopic id f)
  removed : ∀ {t id clientFd}, P t → leaves t id clientFd → P (t.removeTcpSubscriber id clientFd)

/-- Every call is made of these changes. -/
theorem CallRule.step {allowed : Bytes → Prop} {leaves : TopicRuntime → UInt32 → Int → Prop}
    {P : TopicRuntime → Prop} (rule : CallRule allowed leaves P) (h : P t) {call : Call}
    (hname : ∀ name ∈ call.topicName, allowed name)
    (hleaves : ∀ id clientFd, call = .removeTcpSubscriber id clientFd → leaves t id clientFd) :
    P (t.step call) := by
  have hsweep : ∀ {f}, ChangesSubscribers f → P (t.forEachTopic f) := fun hf =>
    List.foldlRecOn _ _ h fun _ h _ _ => rule.swept h hf
  cases call with
  | rememberSubscription | setErrorCallback | setExpectedSubscriptionHash =>
    exact rule.subscribed h (hname _ rfl) (fun _ => rfl) fun _ => rfl
  | forgetSubscription name selector => exact of_forgetSubscription h (rule.dropped h) selector
  | rememberPublishedTopic => exact rule.published h (hname _ rfl)
  | forgetPublishedTopic name => exact of_forgetPublishedTopic h (rule.dropped h)
  | forgetPublishedTopicsByOwner =>
    exact List.foldlRecOn _ _ h fun _ h _ _ => of_forgetPublishedTopic h (rule.dropped h)
  | addTcpSubscriber | addShmSubscriberService =>
    refine rule.entered h fun s => ?_
    split_ifs with hthere
    · exact ⟨rfl, rfl, rfl, by simp [TopicState.isUnused, ne_nil_of_mem hthere]⟩
    · exact ⟨rfl, rfl, rfl, by simp [TopicState.isUnused]⟩
  | removeTcpSubscriberFd => exact hsweep (changesSubscribers_tcp _)
  | removeTcpSubscriber id clientFd => exact rule.removed h (hleaves id clientFd rfl)
  | removeShmSubscriberService => exact hsweep (changesSubscribers_shm _)

theorem callRule_wellFormed : CallRule (fun _ => True) (fun _ _ _ => True) WellFormed where
  subscribed h _ hkey hselector := h.modifyEnsured (fun _ => rfl) (fun s => s.name_modifySubscription _ _)
    fun _ hs => hs.modifySubscription hkey hselector
  published h _ :=
    h.modifyEnsured (fun _ => rfl) (fun _ => rfl) fun _ hs => hs.of_sublist (List.Sublist.refl _)
  dropped {_ name id _} h _ hf := WellFormed.dropNameIfUnused (h.modifyTopic (fun _ => hf.init) (hf.name _)
    ((h.keyed id).of_sublist (hf.subscriptions _))) name id
  swept {_ id _} h hf := WellFormed.eraseTopicIfUnused (h.modifyTopic (fun _ => hf.init) (hf.name _)
    (hf.keyed (h.keyed id))) id
  entered h hf := h.modifyEnsured (fun hne => absurd rfl hne) (fun s => (hf s).1)
    fun s hs => hs.of_sublist (by rw [(hf s).2.1])
  removed {_ id _} h _ := h.modifyTopic (fun _ => rfl) rfl ((h.keyed id).of_sublist (List.Sublist.refl _))

theorem WellFormed.step (h : t.WellFormed) (call : Call) : (t.step call).WellFormed :=
  callRule_wellFormed.step h (fun _ _ => trivial) fun _ _ _ => trivial

/-! ### The publications of a service -/

/-- A topic is published, its recorded owner is the service, and it is found by its name. -/
structure OwnedBy (t : TopicRuntime) (ownerService : Bytes) (id : UInt32) : Prop where
  published : (t.topic id).published = true
  owner : (t.topic id).ownerService = ownerService
  named : (t.topic id).name ≠ []
  listed : t.nameToId[(t.topic id).name]? = some id

instance (t : TopicRuntime) (ownerService : Bytes) (id : UInt32) : Decidable (t.OwnedBy ownerService id) :=
  decidable_of_iff ((t.topic id).published = true ∧ (t.topic id).ownerService = ownerService ∧
      (t.topic id).name ≠ [] ∧ t.nameToId[(t.topic id).name]? = some id)
    ⟨fun ⟨hpublished, howner, hnamed, hlisted⟩ => ⟨hpublished, howner, hnamed, hlisted⟩,
      fun h => ⟨h.published, h.owner, h.named, h.listed⟩⟩

/-- Only names of the topic itself go when a topic may be erased. -/
theorem nameToId_eraseTopicIfUnused_of_ne
    (hnamed : (t.topic id).name ≠ [] → fnv1a32 (t.topic id).name = id) (hne : fnv1a32 name ≠ id) :
    (t.eraseTopicIfUnused id).nameToId[name]? = t.nameToId[name]? := by
  rw [nameToId_eraseTopicIfUnused, if_neg]
  rintro ⟨-, rfl, hname⟩
  exact hne (hnamed hname)

theorem WellFormed.named_modifyTopic (h : t.WellFormed) (hinit : f .init = .init)
    (hname : ∀ s, (f s).name = s.name) (id : UInt32) : ((t.modifyTopic id f).topic id).name ≠ [] →
      fnv1a32 ((t.modifyTopic id f).topic id).name = id := by
  rw [topic_modifyTopic _ _ _ _ fun _ => hinit, if_pos rfl, hname]
  exact h.named id

/-- A topic that is changed and then perhaps dropped together with the name that led to it. -/
theorem WellFormed.nameToId_drop_of_ne (h : t.WellFormed)
    (hid : t.nameToId[name]? = some id) (hinit : f .init = .init) (hname : ∀ s, (f s).name = s.name)
    (hne : fnv1a32 other ≠ fnv1a32 name) :
    ((t.modifyTopic id f).dropNameIfUnused name id).nameToId[other]? = t.nameToId[other]? := by
  obtain ⟨-, hid⟩ := h.indexed name id hid
  rw [dropNameIfUnused_eq,
    nameToId_eraseTopicIfUnused_of_ne (by exact h.named_modifyTopic hinit hname id) (hid ▸ hne)]
  dsimp only
  split_ifs
  · rfl
  · exact Table.getElem?_erase_of_ne _ fun hsame => hne (hsame ▸ rfl)

theorem WellFormed.nameToId_forgetPublishedTopic_of_ne (h : t.WellFormed)
    (hne : fnv1a32 other ≠ fnv1a32 name) :
    (t.forgetPublishedTopic name).nameToId[other]? = t.nameToId[other]? :=
  of_forgetPublishedTopic (P := (·.nameToId[other]? = t.nameToId[other]?)) rfl fun hid hf =>
    h.nameToId_drop_of_ne hid hf.init hf.name hne

theorem WellFormed.nameToId_forgetSubscription_of_ne (h : t.WellFormed)
    {selector : SubscriptionSelector} (hne : fnv1a32 other ≠ fnv1a32 name) :
    (t.forgetSubscription name selector).nameToId[other]? = t.nameToId[other]? :=
  of_forgetSubscription (P := (·.nameToId[other]? = t.nameToId[other]?)) rfl
    (fun hid hf => h.nameToId_drop_of_ne hid hf.init hf.name hne) selector

/-- The publications that lead to a topic by one of the names are taken back. -/
theorem WellFormed.topic_foldl_forgetPublishedTopic (h : t.WellFormed) (names : List Bytes)
    (a : UInt32) : (names.foldl TopicRuntime.forgetPublishedTopic t).topic a =
      if (t.topic a).published ∧ ∃ name ∈ names, t.nameToId[name]? = some a then (t.topic a).unpublished
      else t.topic a := by
  induction names generalizing t with
  | nil => simp
  | cons name names ih =>
    rw [foldl_cons, ih (t := t.forgetPublishedTopic name) (h.step (.forgetPublishedTopic name)), topic_forgetPublishedTopic]
    by_cases hhere : t.nameToId[name]? = some a ∧ (t.topic a).published
    · -- it is taken back by this name, and the others find it unpublished
      have hdone : (t.topic a).unpublished.published = false :=
        (TopicState.settle_kept _).2.1
      have hall : (t.topic a).published ∧ ∃ n ∈ name :: names, t.nameToId[n]? = some a :=
        ⟨hhere.2, name, mem_cons_self, hhere.1⟩
      rw [if_pos hhere, if_pos hall, if_neg]
      rw [hdone]
      exact fun hfalse => absurd hfalse.1 (by decide)
    · rw [if_neg hhere]
      refine if_congr (and_congr_right fun hpublished => ?_) rfl rfl
      have hother : t.nameToId[name]? ≠ some a := fun heq => hhere ⟨heq, hpublished⟩
      simp only [mem_cons, exists_eq_or_imp, hother, false_or]
      refine exists_congr fun n => and_congr_right fun _ => ?_
      -- a name that leads to the topic does not lead to the one that is taken back
      have hkept : fnv1a32 n = a →
          (t.forgetPublishedTopic name).nameToId[n]? = t.nameToId[n]? := by
        intro hn
        cases hname : t.nameToId[name]? with
        | none => rw [TopicRuntime.forgetPublishedTopic, hname]
        | some id =>
          refine h.nameToId_forgetPublishedTopic_of_ne fun heq => hother ?_
          rw [hname, ← (h.indexed name id hname).2, ← heq, hn]
      constructor
      · intro hlater
        exact (hkept ((h.step (.forgetPublishedTopic name)).indexed n a hlater).2).symm.trans hlater
      · intro hbefore
        exact (hkept (h.indexed n a hbefore).2).trans hbefore

variable {ownerService : Bytes}

theorem WellFormed.mem_namesOwnedBy (h : t.WellFormed) :
    ((t.topic a).published ∧ ∃ name ∈ t.namesOwnedBy ownerService, t.nameToId[name]? = some a) ↔
      t.OwnedBy ownerService a := by
  constructor
  · rintro ⟨hpublished, name, hname, hlisted⟩
    obtain ⟨⟨id, s⟩, hmem, hsome⟩ := List.mem_filterMap.1 hname
    dsimp only at hsome
    split_ifs at hsome with howned
    cases hsome
    have hs : t.topic id = s := topic_of_some (Table.mem_toList.1 hmem)
    have hne : s.name ≠ [] := by simpa using howned.2.2
    obtain rfl : id = a := by
      rw [← (h.indexed _ _ hlisted).2, ← hs]
      exact (h.named id (hs ▸ hne)).symm
    subst hs
    exact ⟨hpublished, howned.2.1, hne, hlisted⟩
  · intro howned
    refine ⟨howned.published, (t.topic a).name, ?_, howned.listed⟩
    have hthere : t.topics[a]? = some (t.topic a) := by
      cases ha : t.topics[a]? with
      | none =>
        have hinit : t.topic a = .init := by rw [topic, ha]; rfl
        exact absurd howned.published (by rw [hinit]; decide)
      | some s => rw [topic_of_some ha]
    refine List.mem_filterMap.2 ⟨(a, t.topic a), Table.mem_toList.2 hthere, ?_⟩
    dsimp only
    rw [if_pos ⟨howned.published, howned.owner, by simpa using howned.named⟩]

theorem WellFormed.topic_forgetPublishedTopicsByOwner (h : t.WellFormed) (ownerService : Bytes)
    (a : UInt32) : (t.forgetPublishedTopicsByOwner ownerService).topic a =
      if t.OwnedBy ownerService a then (t.topic a).unpublished else t.topic a := by
  rw [TopicRuntime.forgetPublishedTopicsByOwner, h.topic_foldl_forgetPublishedTopic]
  exact if_congr h.mem_namesOwnedBy rfl rfl

section
variable {f : TopicState → TopicState} (hf : ChangesSubscribers f)
include hf

/-- A loop over all topics leaves the names of a published topic alone. -/
theorem WellFormed.nameToId_forEachTopic (h : t.WellFormed)
    (hused : (t.topic (fnv1a32 name)).published = true) :
    (t.forEachTopic f).nameToId[name]? = t.nameToId[name]? := by
  rw [TopicRuntime.forEachTopic]
  generalize t.topics.keys = ids
  induction ids generalizing t with
  | nil => rfl
  | cons id ids ih =>
    have hmodified : (t.modifyTopic id f).WellFormed :=
      h.modifyTopic (fun _ => hf.init) (hf.name _) (hf.keyed (h.keyed id))
    have hsame : ∀ a, ((t.modifyTopic id f).topic a).published = (t.topic a).published := by
      intro a
      rw [topic_modifyTopic _ _ _ _ fun _ => hf.init]
      split_ifs
      · exact hf.published _
      · rfl
    rw [foldl_cons, ih (hmodified.eraseTopicIfUnused id)]
    · by_cases hid : fnv1a32 name = id
      · -- the topic itself is in use
        subst hid
        rw [nameToId_eraseTopicIfUnused, if_neg]
        · rfl
        · exact fun hunused =>
            TopicState.Active.used (.inr ((hsame _).trans hused)) hunused.1
      · exact nameToId_eraseTopicIfUnused_of_ne (hmodified.named id) hid
    · rw [topic_eraseTopicIfUnused]
      split_ifs
      · rw [(TopicState.settle_kept _).2.1, hsame]
        exact hused
      · rw [hsame]
        exact hused

theorem WellFormed.ownedBy_forEachTopic (h : t.WellFormed) :
    (t.forEachTopic f).OwnedBy ownerService a ↔ t.OwnedBy ownerService a := by
  have htopic := topic_forEachTopic t f hf.init a
  have hflag : ((t.forEachTopic f).topic a).published = (t.topic a).published := by
    rw [htopic, (TopicState.settle_kept _).2.1, hf.published]
  -- a published topic keeps everything, so its owner and its name can be compared
  have hsame : (t.topic a).published = true → (t.forEachTopic f).topic a = f (t.topic a) := by
    intro hused
    rw [htopic, TopicState.settle_of_used]
    exact TopicState.Active.used (.inr ((hf.published _).trans hused))
  have hlisted : (t.topic a).published = true → (t.topic a).name ≠ [] →
      (t.forEachTopic f).nameToId[(t.topic a).name]? = t.nameToId[(t.topic a).name]? := by
    intro hused hne
    refine h.nameToId_forEachTopic hf ?_
    rw [h.named a hne]
    exact hused
  constructor
  · rintro ⟨hused, hown, hne, hlist⟩
    rw [hflag] at hused
    rw [hsame hused, hf.owner] at hown
    rw [hsame hused, hf.name] at hne hlist
    exact ⟨hused, hown, hne, (hlisted hused hne).symm.trans hlist⟩
  · rintro ⟨hused, hown, hne, hlist⟩
    refine ⟨hflag.trans hused, ?_, ?_, ?_⟩
    · rw [hsame hused, hf.owner]
      exact hown
    · rw [hsame hused, hf.name]
      exact hne
    · rw [hsame hused, hf.name]
      exact (hlisted hused hne).trans hlist

end

end OmniBinder.TopicRuntime
