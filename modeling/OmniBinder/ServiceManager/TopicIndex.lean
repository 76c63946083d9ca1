/-
Module: OmniBinder.ServiceManager.TopicIndex
Purpose: What the operations of the topic manager do to the publisher slots and to the subscriptions,
  stated for each of them as an equation, and the invariant that both indices list what is stored.
Trusted boundary: none
Main exports: TopicTables.slot?, TopicManager
-/
import OmniBinder.ServiceManager.TopicManager

namespace OmniBinder.ServiceManager

open List Option Table Std.TreeMap SetIndex TopicTables Table

variable {m'' : TopicTables}

variable {s t k topic i : Bytes} {m m' : TopicTables} {fd : Int}
  {selector : TopicSubscriptionFilter} {slot : PublisherSlot}

namespace TopicTables

/-! ### Slots and subscriptions -/

theorem entryKey_inj {s' t' : Bytes} (h : entryKey s t = entryKey s' t') : s = s' ∧ t = t' := by
  simp only [entryKey, append_assoc] at h
  exact (sized_append_inj 58 (by decide)).mp h

/-- The slot of a publisher instance. -/
def slot? (m : TopicTables) (service topic instanceKey : Bytes) : Option PublisherSlot :=
  match m.topics[entryKey service topic]? with
  | none => none
  | some entry => entry.publishers[instanceKey]?

/-- The subscription of a connection under a selector key. -/
def subscription? (m : TopicTables) (service topic : Bytes) (fd : Int) (selectorKey : Bytes) :
    Option TopicSubscriptionFilter :=
  match m.topics[entryKey service topic]? with
  | none => none
  | some entry => entry.subscribers.get? fd selectorKey

/-- Every entry is stored under the key of its own names. -/
def Keyed (m : TopicTables) : Prop :=
  ∀ (ekey : Bytes) (entry : TopicEntry), m.topics[ekey]? = some entry →
    ekey = entryKey entry.serviceName entry.topicName

/-- The same slots and the same index of them, over entries that may be others. -/
structure SamePublishers (m m' : TopicTables) : Prop where
  slot_eq : ∀ s t i, m'.slot? s t i = m.slot? s t i
  fdPublications_eq : m'.fdPublications = m.fdPublications

/-- The same subscriptions and the same indices of them. -/
structure SameSubscribers (m m' : TopicTables) : Prop where
  subscription_eq : ∀ s t fd k, m'.subscription? s t fd k = m.subscription? s t fd k
  fdSubscriptions_eq : m'.fdSubscriptions = m.fdSubscriptions
  fdSubscriptionCounts_eq : m'.fdSubscriptionCounts = m.fdSubscriptionCounts

theorem SameSubscribers.refl (m : TopicTables) : SameSubscribers m m := ⟨fun _ _ _ _ => rfl, rfl, rfl⟩

theorem SameSubscribers.trans (h : SameSubscribers m m') (h' : SameSubscribers m' m'') :
    SameSubscribers m m'' :=
  ⟨fun s t fd k => (h'.subscription_eq s t fd k).trans (h.subscription_eq s t fd k),
    h'.fdSubscriptions_eq.trans h.fdSubscriptions_eq,
    h'.fdSubscriptionCounts_eq.trans h.fdSubscriptionCounts_eq⟩

structure Quiet (m m' : TopicTables) : Prop extends SamePublishers m m', SameSubscribers m m' where
  keyed : m.Keyed → m'.Keyed

theorem Quiet.refl (m : TopicTables) : Quiet m m := ⟨⟨fun _ _ _ => rfl, rfl⟩, .refl m, id⟩

theorem topics_eraseEntryIfUnused (m : TopicTables) (ekey k : Bytes) :
    (m.eraseEntryIfUnused ekey).topics[k]? = m.topics[k]? ∨
      (k = ekey ∧ (m.eraseEntryIfUnused ekey).topics[k]? = none ∧
        ∃ entry : TopicEntry, m.topics[k]? = some entry ∧ entry.publishers.isEmpty = true ∧
          entry.subscribers.isEmpty = true) := by
  unfold eraseEntryIfUnused
  split
  · exact .inl rfl
  next entry hentry =>
  split_ifs with hunused
  · by_cases hkey : ekey = k
    · subst hkey
      exact .inr ⟨rfl, getElem?_erase_self _ _, entry, hentry, hunused⟩
    · exact .inl (getElem?_erase_of_ne _ hkey)
  · exact .inl rfl

theorem Keyed.modifyEntry (h : m.Keyed) (ekey : Bytes) {f : TopicEntry → TopicEntry}
    (hf : ∀ entry, (f entry).serviceName = entry.serviceName ∧ (f entry).topicName = entry.topicName) :
    (m.modifyEntry ekey f).Keyed := by
  intro k entry hentry
  simp only [TopicTables.modifyEntry, getElem?_adjust] at hentry
  split_ifs at hentry with hkey
  · obtain ⟨old, hold, hnew⟩ := bind_eq_some_iff.mp hentry
    cases hnew
    rw [(hf old).1, (hf old).2, ← hkey]
    exact h ekey old hold
  · exact h k entry hentry

theorem Keyed.modifyPublishers (h : m.Keyed) (ekey : Bytes) (f : TopicEntry → Table Bytes PublisherSlot) :
    (m.modifyEntry ekey fun entry => { entry with publishers := f entry }).Keyed :=
  h.modifyEntry ekey fun _ => ⟨rfl, rfl⟩

theorem Keyed.modifySubscribers (h : m.Keyed) (ekey : Bytes)
    (f : TopicEntry → NestedTable Int Bytes TopicSubscriptionFilter) :
    (m.modifyEntry ekey fun entry => { entry with subscribers := f entry }).Keyed :=
  h.modifyEntry ekey fun _ => ⟨rfl, rfl⟩

theorem topics_ensureEntry (m : TopicTables) (service topic k : Bytes) :
    (m.ensureEntry service topic).topics[k]? = m.topics[k]? ∨
      (k = entryKey service topic ∧ m.topics[k]? = none ∧
        (m.ensureEntry service topic).topics[k]? = some ⟨service, topic, ∅, .empty⟩) := by
  unfold ensureEntry
  split_ifs with hcontains
  · exact .inl rfl
  by_cases hkey : entryKey service topic = k
  · subst hkey
    have hnone : m.topics[entryKey service topic]? = none :=
      Std.TreeMap.getElem?_eq_none fun hmem => hcontains (Std.TreeMap.contains_iff_mem.mpr hmem)
    exact .inr ⟨rfl, hnone, getElem?_insert_self _ _ _⟩
  · exact .inl (getElem?_insert_of_ne _ hkey _)

theorem exists_ensureEntry (m : TopicTables) (service topic : Bytes) :
    ∃ entry, (m.ensureEntry service topic).topics[entryKey service topic]? = some entry := by
  unfold ensureEntry
  split_ifs with hcontains
  · exact ⟨_, getElem?_eq_some_getElem (Std.TreeMap.contains_iff_mem.mp hcontains)⟩
  · exact ⟨_, getElem?_insert_self _ _ _⟩

/-! ### Reading an entry -/

/-- What is read from the entry of a topic of a service, if there is one. `slot?` and `subscription?` are
    reads of this kind. -/
def lookup {β : Type} (m : TopicTables) (s t : Bytes) (read : TopicEntry → Option β) : Option β :=
  match m.topics[entryKey s t]? with
  | none => none
  | some entry => read entry

section
variable {β : Type} {read : TopicEntry → Option β} {f : TopicEntry → TopicEntry}

/-- An entry that goes because it is unused held nothing. -/
theorem lookup_eraseEntryIfUnused (hread : ∀ entry : TopicEntry, entry.publishers.isEmpty = true →
    entry.subscribers.isEmpty = true → read entry = none) (ekey : Bytes) :
    (m.eraseEntryIfUnused ekey).lookup s t read = m.lookup s t read := by
  unfold lookup
  rcases topics_eraseEntryIfUnused m ekey (entryKey s t) with hsame | ⟨-, hgone, entry, hentry, hpub, hsub⟩
  · rw [hsame]
  · simp only [hgone, hentry, hread entry hpub hsub]

/-- A new entry holds nothing yet. -/
theorem lookup_ensureEntry (hread : ∀ s t, read ⟨s, t, ∅, .empty⟩ = none) (service topic : Bytes) :
    (m.ensureEntry service topic).lookup s t read = m.lookup s t read := by
  unfold lookup
  rcases topics_ensureEntry m service topic (entryKey s t) with hsame | ⟨-, hnone, hnew⟩
  · rw [hsame]
  · simp only [hnew, hnone, hread]

theorem lookup_modifyEntry (ekey : Bytes) : (m.modifyEntry ekey f).lookup s t read =
    if ekey = entryKey s t then m.lookup s t (read ∘ f) else m.lookup s t read := by
  simp only [lookup, modifyEntry, getElem?_adjust]
  split_ifs with hkey
  · rw [hkey]
    cases m.topics[entryKey s t]? with
    | none => rfl
    | some entry => rfl
  · rfl

/-- A change of one value of an entry that is there. -/
theorem lookup_update {service : Bytes} {entry : TopicEntry} {P : Prop} [Decidable P] {new : Option β}
    (hentry : m.topics[entryKey service topic]? = some entry)
    (hread : read (f entry) = if P then new else read entry) :
    (m.modifyEntry (entryKey service topic) f).lookup s t read =
      if service = s ∧ topic = t ∧ P then new else m.lookup s t read := by
  rw [lookup_modifyEntry]
  by_cases hkey : entryKey service topic = entryKey s t
  · obtain ⟨rfl, rfl⟩ := entryKey_inj hkey
    simp [lookup, hentry, hread]
  · have hother : ¬ (service = s ∧ topic = t ∧ P) := by
      rintro ⟨rfl, rfl, -⟩
      exact hkey rfl
    rw [if_neg hkey, if_neg hother]

end

theorem quiet_eraseEntryIfUnused (m : TopicTables) (ekey : Bytes) : Quiet m (m.eraseEntryIfUnused ekey) := by
  have hindices : (m.eraseEntryIfUnused ekey).fdPublications = m.fdPublications ∧
      (m.eraseEntryIfUnused ekey).fdSubscriptions = m.fdSubscriptions ∧
      (m.eraseEntryIfUnused ekey).fdSubscriptionCounts = m.fdSubscriptionCounts := by
    unfold eraseEntryIfUnused
    split
    · exact ⟨rfl, rfl, rfl⟩
    · split_ifs
      · exact ⟨rfl, rfl, rfl⟩
      · exact ⟨rfl, rfl, rfl⟩
  refine ⟨⟨fun _ _ i => ?_, hindices.1⟩, ⟨fun _ _ fd k => ?_, hindices.2.1, hindices.2.2⟩,
    fun h k entry hentry => ?_⟩
  · exact lookup_eraseEntryIfUnused (fun _ hpub _ =>
      Std.TreeMap.getElem?_eq_none (isEmpty_iff_forall_not_mem.mp hpub i)) ekey
  · exact lookup_eraseEntryIfUnused (fun _ _ hsub => NestedTable.get?_of_isEmpty hsub fd k) ekey
  · rcases topics_eraseEntryIfUnused m ekey k with hsame | ⟨-, hgone, -⟩
    · exact h k entry (hsame ▸ hentry)
    · rw [hgone] at hentry
      cases hentry

theorem quiet_ensureEntry (m : TopicTables) (service topic : Bytes) :
    Quiet m (m.ensureEntry service topic) := by
  have hindices : (m.ensureEntry service topic).fdPublications = m.fdPublications ∧
      (m.ensureEntry service topic).fdSubscriptions = m.fdSubscriptions ∧
      (m.ensureEntry service topic).fdSubscriptionCounts = m.fdSubscriptionCounts := by
    unfold ensureEntry
    split_ifs
    · exact ⟨rfl, rfl, rfl⟩
    · exact ⟨rfl, rfl, rfl⟩
  refine ⟨⟨fun _ _ _ => lookup_ensureEntry (by simp) service topic, hindices.1⟩,
    ⟨fun _ _ _ _ => lookup_ensureEntry (by simp) service topic, hindices.2.1, hindices.2.2⟩,
    fun h k entry hentry => ?_⟩
  rcases topics_ensureEntry m service topic k with hsame | ⟨hkey, -, hnew⟩
  · exact h k entry (hsame ▸ hentry)
  · rw [hnew] at hentry
    cases hentry
    exact hkey

theorem samePublishers_modifySubscribers (m : TopicTables) (ekey : Bytes)
    (f : TopicEntry → NestedTable Int Bytes TopicSubscriptionFilter) :
    SamePublishers m (m.modifyEntry ekey fun entry => { entry with subscribers := f entry }) :=
  ⟨fun _ _ _ => (lookup_modifyEntry ekey).trans (ite_self _), rfl⟩

theorem sameSubscribers_modifyPublishers (m : TopicTables) (ekey : Bytes)
    (f : TopicEntry → Table Bytes PublisherSlot) :
    SameSubscribers m (m.modifyEntry ekey fun entry => { entry with publishers := f entry }) :=
  ⟨fun _ _ _ _ => (lookup_modifyEntry ekey).trans (ite_self _), rfl, rfl⟩

/-! ### The indices list what is stored -/

/-- Entries, slots and subscriptions are stored under their own names and keys, and a connection is
    listed with every entry that holds a slot or a subscription of it. -/
structure Indexed (m : TopicTables) : Prop where
  keyed : m.Keyed
  slot_named : ∀ {s t i slot}, m.slot? s t i = some slot →
    slot.info.name = s ∧ slot.info.instanceId = i
  slot_listed : ∀ {s t i slot}, m.slot? s t i = some slot →
    m.fdPublications.Has slot.fd (entryKey s t)
  subscription_named : ∀ {s t fd k selector}, m.subscription? s t fd k = some selector →
    selector.publisherService = s ∧ selector.key = k
  subscription_listed : ∀ {s t fd k selector}, m.subscription? s t fd k = some selector →
    m.fdSubscriptions.Has fd (entryKey s t)

theorem indexed_init : init.Indexed where
  keyed := by simp [Keyed, init]
  slot_named := by simp [slot?, init]
  slot_listed := by simp [slot?, init]
  subscription_named := by simp [subscription?, init]
  subscription_listed := by simp [subscription?, init]

/-- What `Indexed` says of the slots. -/
def SlotsListed (m : TopicTables) : Prop :=
  ∀ s t i slot, m.slot? s t i = some slot → (slot.info.name = s ∧ slot.info.instanceId = i) ∧
    m.fdPublications.Has slot.fd (entryKey s t)

/-- What `Indexed` says of the subscriptions. -/
def SubscriptionsListed (m : TopicTables) : Prop :=
  ∀ s t fd k selector, m.subscription? s t fd k = some selector →
    (selector.publisherService = s ∧ selector.key = k) ∧ m.fdSubscriptions.Has fd (entryKey s t)

theorem Indexed.slots (h : m.Indexed) : m.SlotsListed := fun _ _ _ _ hslot =>
  ⟨h.slot_named hslot, h.slot_listed hslot⟩

theorem Indexed.subscriptions (h : m.Indexed) : m.SubscriptionsListed := fun _ _ _ _ _ hsub =>
  ⟨h.subscription_named hsub, h.subscription_listed hsub⟩

theorem Indexed.of_listed (hkeyed : m.Keyed) (hslots : m.SlotsListed) (hsubs : m.SubscriptionsListed) :
    m.Indexed where
  keyed := hkeyed
  slot_named hslot := (hslots _ _ _ _ hslot).1
  slot_listed hslot := (hslots _ _ _ _ hslot).2
  subscription_named hsub := (hsubs _ _ _ _ _ hsub).1
  subscription_listed hsub := (hsubs _ _ _ _ _ hsub).2

theorem SamePublishers.listed (hsame : SamePublishers m m') (h : m.Indexed) : m'.SlotsListed := by
  intro s t i slot hslot
  rw [hsame.fdPublications_eq]
  exact h.slots s t i slot ((hsame.slot_eq s t i).symm.trans hslot)

theorem SameSubscribers.listed (hsame : SameSubscribers m m') (h : m.Indexed) : m'.SubscriptionsListed := by
  intro s t fd k selector hsub
  rw [hsame.fdSubscriptions_eq]
  exact h.subscriptions s t fd k selector ((hsame.subscription_eq s t fd k).symm.trans hsub)

theorem Indexed.of_quiet (h : m.Indexed) (hquiet : Quiet m m') : m'.Indexed :=
  .of_listed (hquiet.keyed h.keyed) (hquiet.toSamePublishers.listed h) (hquiet.toSameSubscribers.listed h)

/-! ### Dropping slots -/

theorem slot?_dropSlots (m : TopicTables) (ekey : Bytes) (drop : Int → Bool) (s t i : Bytes) :
    (m.dropSlots ekey drop).slot? s t i =
      if ekey = entryKey s t then (m.slot? s t i).filter fun slot => !drop slot.fd
      else m.slot? s t i := by
  unfold dropSlots
  split
  · next hnone =>
    split_ifs with hkey
    · subst hkey
      simp [slot?, hnone]
    · rfl
  · next entry hentry =>
    refine (lookup_modifyEntry ekey).trans ?_
    split_ifs with hkey
    · subst hkey
      simp only [slot?, lookup, hentry]
      exact getElem?_filter _ _ _
    · rfl

theorem sameSubscribers_dropSlots (m : TopicTables) (ekey : Bytes) (drop : Int → Bool) :
    SameSubscribers m (m.dropSlots ekey drop) := by
  unfold dropSlots
  split
  · exact .refl m
  · exact ⟨(sameSubscribers_modifyPublishers m ekey _).subscription_eq, rfl, rfl⟩

theorem Keyed.dropSlots (h : m.Keyed) (ekey : Bytes) (drop : Int → Bool) :
    (m.dropSlots ekey drop).Keyed := by
  unfold TopicTables.dropSlots
  split
  · exact h
  · exact h.modifyPublishers ekey _

/-- The index of a connection loses at most the entry its slots were dropped from. -/
theorem has_dropSlots {ekey : Bytes} {drop : Int → Bool} :
    ((m.dropSlots ekey drop).fdPublications.Has fd k → m.fdPublications.Has fd k) ∧
      (m.fdPublications.Has fd k → (drop fd = true ∧ k = ekey) ∨
        (m.dropSlots ekey drop).fdPublications.Has fd k) := by
  unfold dropSlots
  split
  · exact ⟨id, .inr⟩
  next entry hentry =>
  simp only [has_foldl_remove, exists_eq_right, List.mem_filter]
  refine ⟨And.right, fun hhas => ?_⟩
  by_cases hdropped : drop fd = true ∧ k = ekey
  · exact .inl hdropped
  · exact .inr ⟨fun hboth => hdropped ⟨hboth.2.2, hboth.1⟩, hhas⟩

/-- Dropping goes by connection, so what stays in an entry is still listed with it. -/
theorem Indexed.dropSlots (h : m.Indexed) (ekey : Bytes) (drop : Int → Bool) :
    (m.dropSlots ekey drop).Indexed := by
  refine .of_listed (h.keyed.dropSlots ekey drop) (fun s t i slot hslot => ?_)
    ((sameSubscribers_dropSlots m ekey drop).listed h)
  rw [slot?_dropSlots] at hslot
  split_ifs at hslot with hkey
  · obtain ⟨hslot, hkept⟩ := filter_eq_some_iff.mp hslot
    refine ⟨h.slot_named hslot, (has_dropSlots.2 (h.slot_listed hslot)).resolve_left fun hdropped => ?_⟩
    simp [hdropped.1] at hkept
  · exact ⟨h.slot_named hslot,
      (has_dropSlots.2 (h.slot_listed hslot)).resolve_left fun hdropped => hkey hdropped.2.symm⟩

/-! ### Visiting every entry -/

/-- A relation that every visit keeps is kept by the loop. -/
theorem forEachEntry_rel {R : TopicTables → TopicTables → Prop} (hrefl : ∀ m, R m m)
    (htrans : ∀ {m m' m''}, R m m' → R m' m'' → R m m'') (select : TopicEntry → Bool)
    {visit : TopicTables → Bytes → TopicTables} (hvisit : ∀ m ekey, R m (visit m ekey))
    (m : TopicTables) : R m (m.forEachEntry select visit) := by
  unfold forEachEntry
  generalize m.topics.keys = keys
  induction keys generalizing m with
  | nil => exact hrefl m
  | cons ekey keys ih =>
    rw [foldl_cons]
    refine htrans ?_ (ih _)
    split
    · exact hrefl m
    · split_ifs
      · exact hvisit m ekey
      · exact hrefl m

/-- A loop over the entries with certain names that erases slots from each erases them everywhere. -/
theorem slot?_forEachEntry (hkeyed : m.Keyed) (select : Bytes → Bytes → Bool)
    (keep : PublisherSlot → Bool) {visit : TopicTables → Bytes → TopicTables}
    (hslot : ∀ m ekey s t i, (visit m ekey).slot? s t i = if ekey = entryKey s t then (m.slot? s t i).filter keep else m.slot? s t i)
    (hvisit : ∀ m ekey, m.Keyed → (visit m ekey).Keyed) (s t i : Bytes) :
    (m.forEachEntry (fun entry => select entry.serviceName entry.topicName) visit).slot? s t i =
      (m.slot? s t i).filter fun slot => !select s t || keep slot := by
  have hloop : ∀ (keys : List Bytes) (m : TopicTables), m.Keyed →
      (keys.foldl (fun m ekey =>
        match m.topics[ekey]? with
        | none => m
        | some entry => if select entry.serviceName entry.topicName then visit m ekey else m)
        m).slot? s t i =
        if entryKey s t ∈ keys then (m.slot? s t i).filter fun slot => !select s t || keep slot
        else m.slot? s t i := by
    intro keys
    induction keys with
    | nil => simp
    | cons ekey keys ih =>
      intro m hkeyed
      rw [foldl_cons]
      split
      · next hnone =>
        rw [ih m hkeyed]
        by_cases hkey : ekey = entryKey s t
        · have habsent : m.slot? s t i = none := by simp [slot?, ← hkey, hnone]
          simp [habsent]
        · simp [Ne.symm hkey]
      · next entry hentry =>
        by_cases hselect : select entry.serviceName entry.topicName = true
        · rw [if_pos hselect, ih _ (hvisit m ekey hkeyed), hslot]
          by_cases hkey : ekey = entryKey s t
          · obtain ⟨rfl, rfl⟩ := entryKey_inj (hkey.symm.trans (hkeyed ekey entry hentry))
            simp [hkey, hselect, Option.filter_filter]
          · simp [hkey, Ne.symm hkey]
        · rw [if_neg hselect, ih m hkeyed]
          by_cases hkey : ekey = entryKey s t
          · obtain ⟨rfl, rfl⟩ := entryKey_inj (hkey.symm.trans (hkeyed ekey entry hentry))
            have htrue : ∀ slot : Option PublisherSlot, slot.filter (fun _ => true) = slot := by
              rintro (_ | slot)
              · rfl
              · rfl
            simp [hselect, htrue]
          · simp [Ne.symm hkey]
  refine (hloop m.topics.keys m hkeyed).trans ?_
  split_ifs with hmem
  · rfl
  have habsent : m.slot? s t i = none := by
    unfold slot?
    rw [Std.TreeMap.getElem?_eq_none fun h => hmem (Std.TreeMap.mem_keys.mpr h)]
  rw [habsent]
  rfl

/-- What an operation that only takes slots away leaves alone. -/
structure Prunes (m m' : TopicTables) : Prop extends SameSubscribers m m' where
  keyed : m.Keyed → m'.Keyed
  indexed : m.Indexed → m'.Indexed
  slot_le : ∀ {s t i slot}, m'.slot? s t i = some slot → m.slot? s t i = some slot
  fdPublications_le : ∀ fd k, m'.fdPublications.Has fd k → m.fdPublications.Has fd k

theorem Prunes.refl (m : TopicTables) : Prunes m m := ⟨.refl m, id, id, id, fun _ _ => id⟩

theorem Prunes.trans (h : Prunes m m') (h' : Prunes m' m'') : Prunes m m'' :=
  ⟨h.toSameSubscribers.trans h'.toSameSubscribers, h'.keyed ∘ h.keyed, h'.indexed ∘ h.indexed,
    h.slot_le ∘ h'.slot_le, fun fd k => h.fdPublications_le fd k ∘ h'.fdPublications_le fd k⟩

theorem prunes_dropSlots (m : TopicTables) (ekey : Bytes) (drop : Int → Bool) :
    Prunes m (m.dropSlots ekey drop) := by
  refine ⟨sameSubscribers_dropSlots m ekey drop, (·.dropSlots ekey drop), (·.dropSlots ekey drop),
    fun hslot => ?_, fun _ _ => has_dropSlots.1⟩
  rw [slot?_dropSlots] at hslot
  split_ifs at hslot
  · exact (filter_eq_some_iff.mp hslot).1
  · exact hslot

theorem Quiet.prunes (h : Quiet m m') : Prunes m m' :=
  ⟨h.toSameSubscribers, h.keyed, (·.of_quiet h), fun {s t i _} => (h.slot_eq s t i ▸ id),
    fun _ _ => h.fdPublications_eq ▸ id⟩

theorem prunes_eraseEntryIfUnused (m : TopicTables) (ekey : Bytes) :
    Prunes m (m.eraseEntryIfUnused ekey) :=
  (quiet_eraseEntryIfUnused m ekey).prunes

theorem prunes_removePublisherSlots (m : TopicTables) (topic : Bytes) (fd : Int) (filterFd : Bool) :
    Prunes m (m.removePublisherSlots topic fd filterFd) :=
  forEachEntry_rel Prunes.refl Prunes.trans _
    (fun m ekey => (prunes_dropSlots m ekey _).trans (prunes_eraseEntryIfUnused _ ekey)) m

theorem prunes_removePublisher (m : TopicTables) (topic : Bytes) (fd : Int) :
    Prunes m (m.removePublisher topic fd) := by
  unfold removePublisher
  split_ifs
  · exact Prunes.refl m
  · exact prunes_removePublisherSlots m topic fd true

theorem prunes_removePublishersByService (m : TopicTables) (service : Bytes) (fd : Int) :
    Prunes m (m.removePublishersByService service fd) := by
  exact (forEachEntry_rel Prunes.refl Prunes.trans _ (fun m ekey => prunes_dropSlots m ekey _)
    m).trans (forEachEntry_rel Prunes.refl Prunes.trans _ prunes_eraseEntryIfUnused _)

theorem slot?_removePublisher (hkeyed : m.Keyed) (topic : Bytes) (fd : Int)
    (hvalid : topic ≠ [] ∧ topic.length ≤ maxTopicNameLength) (s t i : Bytes) :
    (m.removePublisher topic fd).slot? s t i =
      (m.slot? s t i).filter fun slot => !(t = topic ∧ slot.fd = fd) := by
  have hpass : ¬ (topic.isEmpty = true ∨ topic.length > maxTopicNameLength) := by
    rw [List.isEmpty_iff, not_or, Nat.not_lt]
    exact hvalid
  unfold removePublisher removePublisherSlots
  rw [if_neg hpass]
  rw [slot?_forEachEntry hkeyed (fun _ name => name = topic)
    (fun slot => !decide (slot.fd = fd)) ?_ ?_ s t i]
  · congr
    funext slot
    by_cases ht : t = topic
    · simp [ht]
    · simp [ht]
  · intro m ekey s t i
    rw [(quiet_eraseEntryIfUnused _ _).slot_eq, slot?_dropSlots]
    simp
  · intro m ekey hkeyed
    exact (quiet_eraseEntryIfUnused _ ekey).keyed (hkeyed.dropSlots ekey _)

theorem slot?_removePublishersByService (hkeyed : m.Keyed) (service : Bytes) (fd : Int)
    (s t i : Bytes) :
    (m.removePublishersByService service fd).slot? s t i =
      (m.slot? s t i).filter fun slot => !(s = service ∧ slot.fd = fd) := by
  unfold removePublishersByService
  -- the second loop erases unused entries only
  have herase : ∀ m : TopicTables, (m.forEachEntry (fun entry => entry.serviceName = service)
      eraseEntryIfUnused).slot? s t i = m.slot? s t i :=
    forEachEntry_rel (R := fun m m' => m'.slot? s t i = m.slot? s t i) (fun _ => rfl)
      (fun h h' => h'.trans h) _ fun m ekey => (quiet_eraseEntryIfUnused m ekey).slot_eq s t i
  rw [herase]
  rw [slot?_forEachEntry hkeyed (fun name _ => name = service)
    (fun slot => !decide (slot.fd = fd)) ?_ ?_ s t i]
  · congr
    funext slot
    by_cases hs : s = service
    · simp [hs]
    · simp [hs]
  · intro m ekey s t i
    exact slot?_dropSlots m ekey _ s t i
  · exact fun m ekey hkeyed => hkeyed.dropSlots ekey _

/-! ### Publishing and subscribing -/

/-- What a publication that is not refused leaves behind. -/
structure Published (m : TopicTables) (topic : Bytes) (info : ServiceInfo) (fd : Int)
    (idlHash : UInt32) (m' : TopicTables) : Prop extends SameSubscribers m m' where
  topic_valid : topic ≠ [] ∧ topic.length ≤ maxTopicNameLength
  name_ne : info.name ≠ []
  keyed : m.Keyed → m'.Keyed
  slot_eq : ∀ s t i, m'.slot? s t i =
    if info.name = s ∧ topic = t ∧ info.instanceId = i then some ⟨fd, info, idlHash⟩
    else m.slot? s t i
  has_publications : ∀ fd' k, m'.fdPublications.Has fd' k ↔
    (fd' = fd ∧ k = entryKey info.name topic) ∨ m.fdPublications.Has fd' k

/-- A publication is refused without effect, or stores the slot. -/
theorem registerPublisher_cases (m : TopicTables) (topic : Bytes) (info : ServiceInfo) (fd : Int)
    (idlHash : UInt32) : m.registerPublisher topic info fd idlHash = (false, m) ∨
      ((m.registerPublisher topic info fd idlHash).1 = true ∧
        Published m topic info fd idlHash (m.registerPublisher topic info fd idlHash).2) := by
  unfold registerPublisher
  split_ifs with htopic hname
  · exact .inl rfl
  · exact .inl rfl
  simp only
  split_ifs
  · exact .inl rfl
  · exact .inl rfl
  · exact .inl rfl
  · obtain ⟨entry, hentry⟩ := exists_ensureEntry m info.name topic
    have hquiet := quiet_ensureEntry m info.name topic
    rw [List.isEmpty_iff, not_or, Nat.not_lt] at htopic hname
    have hsame := hquiet.toSameSubscribers.trans (sameSubscribers_modifyPublishers _ (entryKey info.name topic)
      fun entry => entry.publishers.insert info.instanceId ⟨fd, info, idlHash⟩)
    refine .inr ⟨rfl, ⟨hsame.subscription_eq, hquiet.fdSubscriptions_eq, hquiet.fdSubscriptionCounts_eq⟩,
      htopic, hname.1, fun hkeyed => ?_, fun s t i => ?_, fun fd' k => ?_⟩
    · exact (hquiet.keyed hkeyed).modifyPublishers (entryKey info.name topic) _
    · refine (lookup_update hentry (getElem?_insert _ _ _ _)).trans ?_
      exact if_congr Iff.rfl rfl (hquiet.slot_eq s t i)
    · refine has_add.trans (or_congr_right ?_)
      rw [← hquiet.fdPublications_eq]
      rfl

theorem Published.indexed {info : ServiceInfo} {idlHash : UInt32} (h : m.Indexed)
    (hpub : Published m topic info fd idlHash m') : m'.Indexed := by
  refine .of_listed (hpub.keyed h.keyed) (fun s t i slot hslot => ?_)
    (hpub.toSameSubscribers.listed h)
  rw [hpub.slot_eq] at hslot
  rw [hpub.has_publications]
  split_ifs at hslot with hsame
  · cases hslot
    obtain ⟨rfl, rfl, rfl⟩ := hsame
    exact ⟨⟨rfl, rfl⟩, .inl ⟨rfl, rfl⟩⟩
  · exact ⟨h.slot_named hslot, .inr (h.slot_listed hslot)⟩

/-- What a subscription that is not refused leaves behind. -/
structure Subscribed (m : TopicTables) (topic : Bytes) (selector : TopicSubscriptionFilter) (fd : Int)
    (m' : TopicTables) : Prop extends SamePublishers m m' where
  fresh : m.subscription? selector.publisherService topic fd selector.key = none
  keyed : m.Keyed → m'.Keyed
  subscription_eq : ∀ s t fd' k, m'.subscription? s t fd' k =
    if selector.publisherService = s ∧ topic = t ∧ fd = fd' ∧ selector.key = k then some selector
    else m.subscription? s t fd' k
  has_subscriptions : ∀ fd' k, m'.fdSubscriptions.Has fd' k ↔
    (fd' = fd ∧ k = entryKey selector.publisherService topic) ∨ m.fdSubscriptions.Has fd' k
  counts_of_ne : ∀ fd', fd' ≠ fd → m'.fdSubscriptionCounts[fd']? = m.fdSubscriptionCounts[fd']?

/-- A subscription that is refused may leave an empty entry behind, nothing else. -/
theorem addSubscriber_cases (m : TopicTables) (topic : Bytes) (selector : TopicSubscriptionFilter)
    (fd : Int) : ((m.addSubscriber topic selector fd).1 = false ∧
        Quiet m (m.addSubscriber topic selector fd).2) ∨
      ((m.addSubscriber topic selector fd).1 = true ∧
        Subscribed m topic selector fd (m.addSubscriber topic selector fd).2) := by
  simp only [addSubscriber]
  split_ifs
  · exact .inl ⟨rfl, .refl m⟩
  · exact .inl ⟨rfl, .refl m⟩
  · exact .inl ⟨rfl, .refl m⟩
  · exact .inl ⟨rfl, .refl m⟩
  · exact .inl ⟨rfl, .refl m⟩
  · have hquiet := quiet_ensureEntry m selector.publisherService topic
    split
    · exact .inl ⟨rfl, hquiet⟩
    next entry hentry =>
    split_ifs with hstored
    · exact .inl ⟨rfl, hquiet⟩
    · exact .inl ⟨rfl, hquiet⟩
    refine .inr ⟨rfl, ⟨fun s t i => ?_, hquiet.fdPublications_eq⟩, ?_, fun hkeyed => ?_,
      fun s t fd' k => ?_, fun fd' k => ?_, fun fd' hne => ?_⟩
    · exact ((samePublishers_modifySubscribers _ _ _).slot_eq s t i).trans (hquiet.slot_eq s t i)
    · rw [← hquiet.subscription_eq]
      simpa [subscription?, hentry] using hstored
    · exact (hquiet.keyed hkeyed).modifySubscribers (entryKey selector.publisherService topic) _
    · refine (lookup_update hentry (NestedTable.get?_set _ _ _ _ _ _)).trans ?_
      exact if_congr Iff.rfl rfl (hquiet.subscription_eq s t fd' k)
    · refine has_add.trans (or_congr_right ?_)
      rw [← hquiet.fdSubscriptions_eq]
      rfl
    · refine (getElem?_insert_of_ne _ (Ne.symm hne) _).trans ?_
      exact congrArg (fun counts : Table Int Nat => counts[fd']?)
        hquiet.fdSubscriptionCounts_eq

theorem Subscribed.indexed (h : m.Indexed) (hsub : Subscribed m topic selector fd m') : m'.Indexed := by
  refine .of_listed (hsub.keyed h.keyed) (hsub.toSamePublishers.listed h)
    fun s t fd' k stored hstored => ?_
  rw [hsub.subscription_eq] at hstored
  rw [hsub.has_subscriptions]
  split_ifs at hstored with hsame
  · cases hstored
    obtain ⟨rfl, rfl, rfl, rfl⟩ := hsame
    exact ⟨⟨rfl, rfl⟩, .inl ⟨rfl, rfl⟩⟩
  · exact ⟨h.subscription_named hstored, .inr (h.subscription_listed hstored)⟩

theorem indexed_addSubscriber (h : m.Indexed) (topic : Bytes) (selector : TopicSubscriptionFilter)
    (fd : Int) : (m.addSubscriber topic selector fd).2.Indexed := by
  rcases addSubscriber_cases m topic selector fd with ⟨-, hquiet⟩ | ⟨-, hsub⟩
  · exact h.of_quiet hquiet
  · exact hsub.indexed h

theorem indexed_registerPublisher (h : m.Indexed) (topic : Bytes) (info : ServiceInfo) (fd : Int)
    (idlHash : UInt32) : (m.registerPublisher topic info fd idlHash).2.Indexed := by
  rcases registerPublisher_cases m topic info fd idlHash with hrefused | ⟨-, hpub⟩
  · rw [hrefused]
    exact h
  · exact hpub.indexed h

/-! ### Unsubscribing -/

/-- What the removal of one subscription leaves behind. -/
structure Unsubscribed (m : TopicTables) (topic : Bytes) (selector : TopicSubscriptionFilter)
    (fd : Int) (m' : TopicTables) : Prop extends SamePublishers m m' where
  keyed : m.Keyed → m'.Keyed
  subscription_eq : ∀ s t fd' k, m'.subscription? s t fd' k =
    if selector.publisherService = s ∧ topic = t ∧ fd = fd' ∧ selector.key = k then none
    else m.subscription? s t fd' k
  subscriptions_le : ∀ fd' k, m'.fdSubscriptions.Has fd' k → m.fdSubscriptions.Has fd' k
  subscriptions_ge : ∀ fd' k, m.fdSubscriptions.Has fd' k → m'.fdSubscriptions.Has fd' k ∨
    (fd' = fd ∧ k = entryKey selector.publisherService topic ∧
      ∀ k', m'.subscription? selector.publisherService topic fd k' = none)
  counts_le : ∀ fd' : Int, m.fdSubscriptionCounts[fd']? = none →
    m'.fdSubscriptionCounts[fd']? = none

/-- The removal has no effect, or takes the one subscription away. -/
theorem removeSubscriber_cases (m : TopicTables) (topic : Bytes) (selector : TopicSubscriptionFilter)
    (fd : Int) : m.removeSubscriber topic selector fd = m ∨
      Unsubscribed m topic selector fd (m.removeSubscriber topic selector fd) := by
  simp only [removeSubscriber]
  by_cases htopic : topic.isEmpty = true ∨ topic.length > maxTopicNameLength
  · exact .inl (if_pos htopic)
  rw [if_neg htopic]
  cases hentry : m.topics[entryKey selector.publisherService topic]? with
  | none => exact .inl rfl
  | some entry =>
    simp only
    by_cases habsent : (entry.subscribers.get? fd selector.key).isNone = true
    · exact .inl (if_pos habsent)
    rw [if_neg habsent]
    have hsub : ∀ s t fd' k, (m.modifyEntry (entryKey selector.publisherService topic)
        fun entry' => { entry' with subscribers := entry.subscribers.erase fd selector.key }
          ).subscription? s t fd' k =
        if selector.publisherService = s ∧ topic = t ∧ fd = fd' ∧ selector.key = k then none
        else m.subscription? s t fd' k := fun s t fd' k =>
      lookup_update hentry (NestedTable.get?_erase _ _ _ _ _)
    set ekey := entryKey selector.publisherService topic with hekey
    refine .inr ⟨⟨fun s t i => ?_, (quiet_eraseEntryIfUnused _ ekey).fdPublications_eq⟩,
      fun hkeyed => ?_, fun s t fd' k => ?_, fun fd' k => ?_, fun fd' k hhas => ?_, fun fd' hnone => ?_⟩
    · exact ((quiet_eraseEntryIfUnused _ ekey).slot_eq s t i).trans
        ((samePublishers_modifySubscribers m ekey _).slot_eq s t i)
    · refine (quiet_eraseEntryIfUnused _ ekey).keyed ?_
      exact hkeyed.modifySubscribers ekey fun _ => entry.subscribers.erase fd selector.key
    · exact ((quiet_eraseEntryIfUnused _ ekey).subscription_eq s t fd' k).trans
        (hsub s t fd' k)
    · rw [(quiet_eraseEntryIfUnused _ ekey).fdSubscriptions_eq]
      split_ifs
      · exact id
      · exact fun hhas => (has_remove.mp hhas).2
    · rw [(quiet_eraseEntryIfUnused _ ekey).fdSubscriptions_eq]
      split_ifs with hrow
      · exact .inl hhas
      by_cases hremoved : fd' = fd ∧ k = ekey
      -- the index entry goes only when no selector of the connection is left in the row
      · refine .inr ⟨hremoved.1, hremoved.2, fun k' => ?_⟩
        refine ((quiet_eraseEntryIfUnused _ ekey).subscription_eq _ _ _ _).trans ?_
        refine ((lookup_modifyEntry ekey).trans (if_pos hekey)).trans ?_
        simp only [lookup, ← hekey, hentry, eq_none_iff_forall_not_mem]
        exact fun left hleft => hrow (NestedTable.hasKey_iff.mpr ⟨k', left, hleft⟩)
      · exact .inl (has_remove.mpr ⟨hremoved, hhas⟩)
    · rw [(quiet_eraseEntryIfUnused _ ekey).fdSubscriptionCounts_eq]
      refine (getElem?_adjust _ fd fd' _).trans ?_
      split_ifs with hfd
      · refine (congrArg (Option.bind · _) ?_).trans (bind_none _)
        exact hfd ▸ hnone
      · exact hnone

theorem indexed_removeSubscriber (h : m.Indexed) (topic : Bytes)
    (selector : TopicSubscriptionFilter) (fd : Int) :
    (m.removeSubscriber topic selector fd).Indexed := by
  rcases removeSubscriber_cases m topic selector fd with hsame | hgone
  · rw [hsame]
    exact h
  refine .of_listed (hgone.keyed h.keyed) (hgone.toSamePublishers.listed h)
    fun s t fd' k stored hstored => ?_
  have hbefore := hstored
  rw [hgone.subscription_eq] at hbefore
  split_ifs at hbefore
  refine ⟨h.subscription_named hbefore, ?_⟩
  rcases hgone.subscriptions_ge _ _ (h.subscription_listed hbefore) with hlisted | ⟨rfl, hkey, hnone⟩
  · exact hlisted
  · obtain ⟨rfl, rfl⟩ := entryKey_inj hkey
    rw [hnone k] at hstored
    cases hstored

/-! ### Forgetting a connection -/

/-- What the two loops of `removeByFd` do over lists of entry keys. -/
structure Dropped (fd : Int) (pubKeys subKeys : List Bytes) (m m' : TopicTables) : Prop where
  keyed : m.Keyed → m'.Keyed
  slot_eq : ∀ s t i, m'.slot? s t i =
    if entryKey s t ∈ pubKeys then (m.slot? s t i).filter fun slot => slot.fd ≠ fd else m.slot? s t i
  subscription_eq : ∀ s t fd' k, m'.subscription? s t fd' k =
    if entryKey s t ∈ subKeys ∧ fd = fd' then none else m.subscription? s t fd' k
  fdPublications_eq : m'.fdPublications = m.fdPublications
  fdSubscriptions_eq : m'.fdSubscriptions = m.fdSubscriptions
  fdSubscriptionCounts_eq : m'.fdSubscriptionCounts = m.fdSubscriptionCounts

theorem Dropped.refl (fd : Int) (m : TopicTables) : Dropped fd [] [] m m :=
  ⟨id, by simp, by simp, rfl, rfl, rfl⟩

theorem Dropped.trans {pubKeys subKeys pubKeys' subKeys' : List Bytes}
    (h : Dropped fd pubKeys subKeys m m') (h' : Dropped fd pubKeys' subKeys' m' m'') :
    Dropped fd (pubKeys ++ pubKeys') (subKeys ++ subKeys') m m'' where
  keyed := fun hkeyed => h'.keyed (h.keyed hkeyed)
  slot_eq := fun s t i => by
    rw [h'.slot_eq, h.slot_eq]
    by_cases hlisted : entryKey s t ∈ pubKeys
    · simp [hlisted, Option.filter_filter]
    · simp [hlisted]
  subscription_eq := fun s t fd' k => by
    rw [h'.subscription_eq, h.subscription_eq]
    by_cases hfd : fd = fd'
    · by_cases hlisted : entryKey s t ∈ subKeys
      · simp [hfd, hlisted]
      · simp [hfd, hlisted]
    · simp [hfd]
  fdPublications_eq := h'.fdPublications_eq.trans h.fdPublications_eq
  fdSubscriptions_eq := h'.fdSubscriptions_eq.trans h.fdSubscriptions_eq
  fdSubscriptionCounts_eq := h'.fdSubscriptionCounts_eq.trans h.fdSubscriptionCounts_eq

theorem Dropped.eraseEntryIfUnused {pubKeys subKeys : List Bytes} (h : Dropped fd pubKeys subKeys m m')
    (ekey : Bytes) : Dropped fd pubKeys subKeys m (m'.eraseEntryIfUnused ekey) := by
  have hquiet := quiet_eraseEntryIfUnused m' ekey
  have herase : Dropped fd [] [] m' (m'.eraseEntryIfUnused ekey) := { hquiet with
    slot_eq := by simp [hquiet.slot_eq]
    subscription_eq := by simp [hquiet.subscription_eq] }
  simpa using h.trans herase

theorem dropped_dropPublisher (fd : Int) (m : TopicTables) (ekey : Bytes) :
    Dropped fd [ekey] [] m (dropPublisher fd m ekey) := by
  refine Dropped.eraseEntryIfUnused ⟨fun hkeyed => hkeyed.modifyPublishers ekey _, fun s t i => ?_,
    fun s t fd' k => ?_, rfl, rfl, rfl⟩ ekey
  · refine (lookup_modifyEntry ekey).trans (if_congr (by simp [eq_comm]) ?_ rfl)
    unfold slot? lookup
    cases m.topics[entryKey s t]? with
    | none => rfl
    | some entry => exact getElem?_filter _ _ _
  · simpa using (sameSubscribers_modifyPublishers m ekey _).subscription_eq s t fd' k

theorem dropped_dropSubscriber (fd : Int) (m : TopicTables) (ekey : Bytes) :
    Dropped fd [] [ekey] m (dropSubscriber fd m ekey) := by
  unfold dropSubscriber
  cases hentry : m.topics[ekey]? with
  | none =>
    refine ⟨id, by simp, fun s t fd' k => ?_, rfl, rfl, rfl⟩
    by_cases hkey : entryKey s t = ekey
    · simp [subscription?, hkey, hentry]
    · simp [hkey]
  | some entry =>
    refine Dropped.eraseEntryIfUnused ?_ ekey
    refine ⟨fun hkeyed => ?_, fun s t i => ?_, fun s t fd' k => ?_, rfl, rfl, rfl⟩
    · exact Keyed.modifySubscribers hkeyed ekey fun entry => entry.subscribers.eraseKey fd
    · exact (samePublishers_modifySubscribers m ekey fun entry =>
        entry.subscribers.eraseKey fd).slot_eq s t i
    refine (lookup_modifyEntry ekey).trans ?_
    by_cases hkey : ekey = entryKey s t
    · subst hkey
      simp [lookup, hentry, NestedTable.get?_eraseKey, subscription?]
    · rw [if_neg hkey, if_neg (by simp [Ne.symm hkey])]
      rfl

theorem dropped_publishers (fd : Int) (keys : List Bytes) (m : TopicTables) :
    Dropped fd keys [] m (keys.foldl (dropPublisher fd) m) := by
  induction keys generalizing m with
  | nil => exact .refl fd m
  | cons ekey keys ih => exact (dropped_dropPublisher fd m ekey).trans (ih _)

theorem dropped_subscribers (fd : Int) (keys : List Bytes) (m : TopicTables) :
    Dropped fd [] keys m (keys.foldl (dropSubscriber fd) m) := by
  induction keys generalizing m with
  | nil => exact .refl fd m
  | cons ekey keys ih => exact (dropped_dropSubscriber fd m ekey).trans (ih _)

/-- What is left of the topics when a connection is forgotten. -/
structure Forgotten (fd : Int) (m m' : TopicTables) : Prop where
  keyed : m'.Keyed
  slot_eq : ∀ s t i, m'.slot? s t i = (m.slot? s t i).filter fun slot => slot.fd ≠ fd
  subscription_eq : ∀ s t fd' k, m'.subscription? s t fd' k =
    if fd = fd' then none else m.subscription? s t fd' k
  has_publications : ∀ fd' k, m'.fdPublications.Has fd' k ↔ fd' ≠ fd ∧ m.fdPublications.Has fd' k
  has_subscriptions : ∀ fd' k, m'.fdSubscriptions.Has fd' k ↔
    fd' ≠ fd ∧ m.fdSubscriptions.Has fd' k
  counts_eq : m'.fdSubscriptionCounts = m.fdSubscriptionCounts.erase fd

/-- The indices reach every slot and subscription of the connection. -/
theorem forgotten_removeByFd (h : m.Indexed) (fd : Int) : Forgotten fd m (m.removeByFd fd) := by
  have hpub := dropped_publishers fd (m.fdPublications.values fd)
    { m with fdPublications := m.fdPublications.eraseKey fd }
  set m₁ := (m.fdPublications.values fd).foldl (dropPublisher fd)
    { m with fdPublications := m.fdPublications.eraseKey fd }
  have hsub := dropped_subscribers fd (m₁.fdSubscriptions.values fd)
    { m₁ with fdSubscriptions := m₁.fdSubscriptions.eraseKey fd }
  have hsubscriptions : m₁.fdSubscriptions = m.fdSubscriptions := hpub.fdSubscriptions_eq
  have hdone : m.removeByFd fd =
      { (m₁.fdSubscriptions.values fd).foldl (dropSubscriber fd)
          { m₁ with fdSubscriptions := m₁.fdSubscriptions.eraseKey fd } with
        fdSubscriptionCounts := ((m₁.fdSubscriptions.values fd).foldl (dropSubscriber fd)
          { m₁ with fdSubscriptions := m₁.fdSubscriptions.eraseKey fd }).fdSubscriptionCounts.erase
            fd } := rfl
  rw [hdone]
  refine ⟨hsub.keyed (hpub.keyed h.keyed), fun s t i => ?_, fun s t fd' k => ?_, fun fd' k => ?_,
    fun fd' k => ?_, ?_⟩
  · refine ((hsub.slot_eq s t i).trans (hpub.slot_eq s t i)).trans ?_
    split_ifs with hlisted
    · rfl
    change m.slot? s t i = _
    cases hslot : m.slot? s t i with
    | none => rfl
    | some slot =>
      have hother : slot.fd ≠ fd := fun hfd =>
        hlisted (mem_values.mpr (hfd ▸ h.slot_listed hslot))
      rw [filter_some, if_pos (decide_eq_true hother)]
  · refine (hsub.subscription_eq s t fd' k).trans ?_
    have hbefore : TopicTables.subscription?
        { m₁ with fdSubscriptions := m₁.fdSubscriptions.eraseKey fd } s t fd' k =
          m.subscription? s t fd' k := hpub.subscription_eq s t fd' k
    rw [hbefore]
    by_cases hfd : fd = fd'
    · rw [if_pos hfd]
      by_cases hlisted : entryKey s t ∈ m₁.fdSubscriptions.values fd
      · rw [if_pos ⟨hlisted, hfd⟩]
      rw [if_neg fun hboth => hlisted hboth.1, eq_none_iff_forall_not_mem]
      intro selector hselector
      refine hlisted (mem_values.mpr ?_)
      rw [hsubscriptions, hfd]
      exact h.subscription_listed hselector
    · rw [if_neg hfd, if_neg fun hboth => hfd hboth.2]
  · rw [← has_eraseKey]
    exact iff_of_eq (congrArg (fun index => SetIndex.Has index fd' k)
      (hsub.fdPublications_eq.trans hpub.fdPublications_eq))
  · rw [← has_eraseKey, ← hsubscriptions]
    exact iff_of_eq (congrArg (fun index => SetIndex.Has index fd' k) hsub.fdSubscriptions_eq)
  · exact congrArg (fun counts : Table Int Nat => counts.erase fd)
      (hsub.fdSubscriptionCounts_eq.trans hpub.fdSubscriptionCounts_eq)

theorem Forgotten.indexed (h : m.Indexed) (hgone : Forgotten fd m m') : m'.Indexed := by
  refine .of_listed hgone.keyed (fun s t i slot hslot => ?_) fun s t fd' k selector hsub => ?_
  · rw [hgone.slot_eq] at hslot
    obtain ⟨hslot, hkept⟩ := filter_eq_some_iff.mp hslot
    exact ⟨h.slot_named hslot,
      (hgone.has_publications _ _).mpr ⟨of_decide_eq_true hkept, h.slot_listed hslot⟩⟩
  · rw [hgone.subscription_eq] at hsub
    split_ifs at hsub with hfd
    exact ⟨h.subscription_named hsub,
      (hgone.has_subscriptions _ _).mpr ⟨Ne.symm hfd, h.subscription_listed hsub⟩⟩

/-! ### Queries -/

theorem mem_foldl_insert {α : Type} [Ord α] [Std.TransOrd α] [Std.LawfulEqOrd α] {xs : List α}
    {set : KeySet α} {a : α} :
    a ∈ xs.foldl (fun (set : KeySet α) x => set.insert x) set ↔ a ∈ xs ∨ a ∈ set := by
  induction xs generalizing set with
  | nil => simp
  | cons x xs ih =>
    rw [foldl_cons, ih, KeySet.mem_insert, mem_cons]
    exact ⟨fun h => h.elim (.inl ∘ .inr) (Or.imp_left .inl),
      fun h => h.elim (Or.elim · (.inr ∘ .inl) .inl) (.inr ∘ .inr)⟩

/-- The connections told of a publisher are those with a matching subscription to its topic. -/
theorem mem_getMatchingSubscribers (hkeyed : m.Keyed) {publisher : ServiceInfo} :
    fd ∈ m.getMatchingSubscribers topic publisher ↔
      ∃ s k selector, m.subscription? s topic fd k = some selector ∧
        selector.matches publisher = true := by
  unfold getMatchingSubscribers
  rw [Std.TreeSet.mem_toList, mem_foldl_insert]
  simp only [mem_flatMap, Std.TreeSet.not_mem_emptyc, or_false]
  constructor
  · rintro ⟨⟨ekey, entry⟩, hentry, hfd⟩
    have hentry := mem_toList.mp hentry
    have hkey := hkeyed ekey entry hentry
    simp only [ne_eq, ite_not] at hfd
    split_ifs at hfd with htopic
    · obtain ⟨⟨fd', k, selector⟩, hselector, rfl⟩ := List.mem_map.mp hfd
      obtain ⟨hstored, hmatch⟩ := List.mem_filter.mp hselector
      refine ⟨entry.serviceName, k, selector, ?_, hmatch⟩
      simp only [subscription?, ← htopic, ← hkey, hentry]
      exact NestedTable.mem_toList.mp hstored
    · cases hfd
  · rintro ⟨s, k, selector, hstored, hmatch⟩
    unfold subscription? at hstored
    split at hstored
    · cases hstored
    next entry hentry =>
    obtain ⟨-, htopic⟩ := entryKey_inj (hkeyed _ entry hentry)
    refine ⟨(entryKey s topic, entry), mem_toList.mpr hentry, ?_⟩
    rw [if_neg (not_not.mpr htopic.symm)]
    refine List.mem_map.mpr ⟨(fd, k, selector), List.mem_filter.mpr ⟨?_, hmatch⟩, rfl⟩
    exact NestedTable.mem_toList.mpr hstored

/-- The publishers told to a subscriber are the slots of the topic that its selector matches. -/
theorem mem_getMatchingPublishers (h : m.Indexed) {view : TopicPublisherView} :
    view ∈ m.getMatchingPublishers topic selector ↔
      ∃ s i slot, m.slot? s topic i = some slot ∧ selector.matches slot.info = true ∧
        view = ⟨slot.info, slot.idlHash⟩ := by
  unfold getMatchingPublishers
  simp only [List.mem_map, mem_flatMap]
  constructor
  · rintro ⟨slot, ⟨⟨ekey, entry⟩, hentry, hslot⟩, rfl⟩
    have hentry := mem_toList.mp hentry
    have hkey := h.keyed ekey entry hentry
    unfold entryPublishers at hslot
    split_ifs at hslot with htopic hservice
    · cases hslot
    · cases hslot
    rw [not_not] at htopic
    obtain ⟨hpub, hasked⟩ := List.mem_filter.mp hslot
    obtain ⟨⟨i, slot'⟩, hmem, rfl⟩ := List.mem_map.mp hpub
    have hstored : m.slot? entry.serviceName topic i = some slot' := by
      simp only [slot?, ← htopic, ← hkey, hentry]
      exact mem_toList.mp hmem
    refine ⟨entry.serviceName, i, slot', hstored, ?_, rfl⟩
    have hname := (h.slot_named hstored).1
    cases hmode : selector.mode <;>
      simp_all [TopicSubscriptionFilter.matches]
  · rintro ⟨s, i, slot, hstored, hmatch, rfl⟩
    have hname := (h.slot_named hstored).1
    unfold slot? at hstored
    split at hstored
    · cases hstored
    next entry hentry =>
    obtain ⟨hservice, htopic⟩ := entryKey_inj (h.keyed _ entry hentry)
    refine ⟨slot, ⟨(entryKey s topic, entry), mem_toList.mpr hentry, ?_⟩, rfl⟩
    have hmem : slot ∈ entry.publishers.toList.map Prod.snd :=
      List.mem_map.mpr ⟨(i, slot), mem_toList.mpr hstored, rfl⟩
    unfold entryPublishers
    cases hmode : selector.mode <;>
      simp_all [TopicSubscriptionFilter.matches]

/-! ### Where a connection occurs -/

/-- The connection occurs in one of the tables. -/
def Mentions (m : TopicTables) (fd : Int) : Prop :=
  (∃ (ekey : Bytes) (entry : TopicEntry), m.topics[ekey]? = some entry ∧
      (entry.subscribers.hasKey fd = true ∨
        ∃ (i : Bytes) (slot : PublisherSlot), entry.publishers[i]? = some slot ∧ slot.fd = fd)) ∨
    m.fdPublications.hasKey fd = true ∨ m.fdSubscriptions.hasKey fd = true ∨
    m.fdSubscriptionCounts.contains fd = true

/-- With the indices in place they tell of every occurrence. -/
theorem mentions_iff (h : m.Indexed) :
    m.Mentions fd ↔ (∃ k, m.fdPublications.Has fd k) ∨ (∃ k, m.fdSubscriptions.Has fd k) ∨
      m.fdSubscriptionCounts[fd]? ≠ none := by
  have hcounts : m.fdSubscriptionCounts.contains fd = true ↔ m.fdSubscriptionCounts[fd]? ≠ none := by
    rw [← isSome_getElem?_eq_contains, isSome_iff_ne_none]
  unfold Mentions
  rw [hasKey_iff, hasKey_iff, hcounts]
  refine ⟨fun hmentions => hmentions.elim ?_ id, .inr⟩
  rintro ⟨ekey, entry, hentry, hrow | ⟨i, slot, hslot, rfl⟩⟩
  · obtain ⟨k, selector, hget⟩ := NestedTable.hasKey_iff.mp hrow
    have hstored : m.subscription? entry.serviceName entry.topicName fd k = some selector := by
      simpa only [subscription?, ← h.keyed ekey entry hentry, hentry] using hget
    exact .inr (.inl ⟨_, h.subscription_listed hstored⟩)
  · refine .inl ⟨_, h.slot_listed (s := entry.serviceName) (t := entry.topicName) (i := i) ?_⟩
    simpa only [slot?, ← h.keyed ekey entry hentry, hentry] using hslot

theorem mentions_of_slot (hslot : m.slot? s t i = some slot) : m.Mentions slot.fd := by
  unfold slot? at hslot
  split at hslot
  · cases hslot
  · next entry hentry => exact .inl ⟨_, entry, hentry, .inr ⟨i, slot, hslot, rfl⟩⟩

theorem mentions_of_subscription (hsub : m.subscription? s t fd k = some selector) : m.Mentions fd := by
  unfold subscription? at hsub
  split at hsub
  · cases hsub
  · next entry hentry =>
    exact .inl ⟨_, entry, hentry, .inl (NestedTable.hasKey_iff.mpr ⟨k, selector, hsub⟩)⟩

end TopicTables

/-! ### The topic manager -/

/-- The topics together with the invariant of their indices. -/
structure TopicManager where
  tables : TopicTables
  indexed : tables.Indexed

variable {fd' : Int}

namespace TopicManager

open TopicTables

def init : TopicManager := ⟨.init, indexed_init⟩

def registerPublisher (m : TopicManager) (topic : Bytes) (publisherInfo : ServiceInfo)
    (publisherFd : Int) (idlHash : UInt32) : Bool × TopicManager :=
  ((m.tables.registerPublisher topic publisherInfo publisherFd idlHash).1,
    ⟨(m.tables.registerPublisher topic publisherInfo publisherFd idlHash).2,
      indexed_registerPublisher m.indexed _ _ _ _⟩)

def removePublisher (m : TopicManager) (topic : Bytes) (publisherFd : Int) : TopicManager :=
  ⟨m.tables.removePublisher topic publisherFd, (prunes_removePublisher _ _ _).indexed m.indexed⟩

def removePublishersByService (m : TopicManager) (serviceName : Bytes) (publisherFd : Int) :
    TopicManager :=
  ⟨m.tables.removePublishersByService serviceName publisherFd,
    (prunes_removePublishersByService _ _ _).indexed m.indexed⟩

def addSubscriber (m : TopicManager) (topic : Bytes) (selector : TopicSubscriptionFilter)
    (subscriberFd : Int) : Bool × TopicManager :=
  ((m.tables.addSubscriber topic selector subscriberFd).1,
    ⟨(m.tables.addSubscriber topic selector subscriberFd).2, indexed_addSubscriber m.indexed _ _ _⟩)

def removeSubscriber (m : TopicManager) (topic : Bytes) (selector : TopicSubscriptionFilter)
    (subscriberFd : Int) : TopicManager :=
  ⟨m.tables.removeSubscriber topic selector subscriberFd, indexed_removeSubscriber m.indexed _ _ _⟩

def removeByFd (m : TopicManager) (fd : Int) : TopicManager :=
  ⟨m.tables.removeByFd fd, (forgotten_removeByFd m.indexed fd).indexed m.indexed⟩

def getMatchingSubscribers (m : TopicManager) (topic : Bytes) (publisher : ServiceInfo) : List Int :=
  m.tables.getMatchingSubscribers topic publisher

def getMatchingPublishers (m : TopicManager) (topic : Bytes) (selector : TopicSubscriptionFilter) :
    List TopicPublisherView :=
  m.tables.getMatchingPublishers topic selector

def getIdlHash (m : TopicManager) (topic : Bytes) (selector : TopicSubscriptionFilter) :
    Option UInt32 :=
  m.tables.getIdlHash topic selector

def getPublishedTopics (m : TopicManager) (serviceName : Bytes) : List Bytes :=
  m.tables.getPublishedTopics serviceName

/-- The slot of a publisher instance. -/
def slot? (m : TopicManager) (service topic instanceKey : Bytes) : Option PublisherSlot :=
  m.tables.slot? service topic instanceKey

/-- The subscription of a connection under a selector key. -/
def subscription? (m : TopicManager) (service topic : Bytes) (fd : Int) (selectorKey : Bytes) :
    Option TopicSubscriptionFilter :=
  m.tables.subscription? service topic fd selectorKey

/-- The connection occurs in one of the tables. -/
def Mentions (m : TopicManager) (fd : Int) : Prop := m.tables.Mentions fd

@[simp]
theorem slot?_init (s t i : Bytes) : init.slot? s t i = none := by
  simp [slot?, init, TopicTables.slot?, TopicTables.init]

@[simp]
theorem subscription?_init (s t : Bytes) (fd : Int) (k : Bytes) :
    init.subscription? s t fd k = none := by
  simp [subscription?, init, TopicTables.subscription?, TopicTables.init]

theorem not_mentions_init (fd : Int) : ¬ init.Mentions fd := by
  refine fun hmentions => ?_
  rcases (mentions_iff indexed_init).mp hmentions with ⟨k, hhas⟩ | ⟨k, hhas⟩ | hcounts
  · exact not_has_empty fd k hhas
  · exact not_has_empty fd k hhas
  · simp [TopicTables.init] at hcounts

/-- The indices tell of every occurrence, so one that was not there before shows in them. -/
theorem mentions_of_indices {m m' : TopicManager}
    (hpub : ∀ k, m'.tables.fdPublications.Has fd k → m.tables.fdPublications.Has fd k)
    (hsub : ∀ k, m'.tables.fdSubscriptions.Has fd k → m.tables.fdSubscriptions.Has fd k)
    (hcounts : m.tables.fdSubscriptionCounts[fd]? = none →
      m'.tables.fdSubscriptionCounts[fd]? = none) (h : m'.Mentions fd) : m.Mentions fd :=
  (mentions_iff m.indexed).mpr <| Or.imp (Exists.imp hpub)
    (Or.imp (Exists.imp hsub) (mt hcounts)) ((mentions_iff m'.indexed).mp h)

/-! ### What each operation does -/

section
variable (m : TopicManager) (topic : Bytes) (info : ServiceInfo) (fd : Int) (idlHash : UInt32)

theorem registerPublisher_cases : ((m.registerPublisher topic info fd idlHash).1 = false ∧
        (m.registerPublisher topic info fd idlHash).2 = m) ∨
      ((m.registerPublisher topic info fd idlHash).1 = true ∧ topic ≠ [] ∧
        topic.length ≤ maxTopicNameLength ∧
        ∀ s t i, (m.registerPublisher topic info fd idlHash).2.slot? s t i =
          if info.name = s ∧ topic = t ∧ info.instanceId = i then some ⟨fd, info, idlHash⟩
          else m.slot? s t i) := by
  rcases TopicTables.registerPublisher_cases m.tables topic info fd idlHash with
    hrefused | ⟨hok, hpub⟩
  · refine .inl ⟨congrArg Prod.fst hrefused, ?_⟩
    have hsame := congrArg Prod.snd hrefused
    cases m
    simp only [registerPublisher]
    congr
  · exact .inr ⟨hok, hpub.topic_valid.1, hpub.topic_valid.2, hpub.slot_eq⟩

theorem subscription?_registerPublisher (s t : Bytes) (fd' : Int) (k : Bytes) :
    (m.registerPublisher topic info fd idlHash).2.subscription? s t fd' k =
      m.subscription? s t fd' k := by
  rcases TopicTables.registerPublisher_cases m.tables topic info fd idlHash with hrefused | ⟨-, hpub⟩
  · exact congrArg (fun r : Bool × TopicTables => r.2.subscription? s t fd' k) hrefused
  · exact hpub.subscription_eq s t fd' k

end

variable {m : TopicManager}

theorem mentions_registerPublisher {info : ServiceInfo} {idlHash : UInt32}
    (h : (m.registerPublisher topic info fd idlHash).2.Mentions fd') : fd' = fd ∨ m.Mentions fd' := by
  rcases TopicTables.registerPublisher_cases m.tables topic info fd idlHash with hrefused | ⟨-, hpub⟩
  · have hsame := congrArg Prod.snd hrefused
    exact .inr (cast (congrArg (fun tables => TopicTables.Mentions tables fd') hsame) h)
  · refine or_iff_not_imp_left.mpr fun hfd => mentions_of_indices (fun k hhas => ?_) (fun k => ?_) ?_ h
    · exact ((hpub.has_publications fd' k).mp hhas).resolve_left fun hnew => hfd hnew.1
    · exact hpub.fdSubscriptions_eq ▸ id
    · exact hpub.fdSubscriptionCounts_eq ▸ id

section
variable (m : TopicManager) (topic : Bytes) (selector : TopicSubscriptionFilter) (fd : Int)

theorem slot?_addSubscriber (s t i : Bytes) :
    (m.addSubscriber topic selector fd).2.slot? s t i = m.slot? s t i := by
  rcases TopicTables.addSubscriber_cases m.tables topic selector fd with
    ⟨-, hquiet⟩ | ⟨-, hsub⟩
  · exact hquiet.slot_eq s t i
  · exact hsub.slot_eq s t i

theorem addSubscriber_cases : ((m.addSubscriber topic selector fd).1 = false ∧
        ∀ s t fd' k, (m.addSubscriber topic selector fd).2.subscription? s t fd' k =
          m.subscription? s t fd' k) ∨ ((m.addSubscriber topic selector fd).1 = true ∧
        m.subscription? selector.publisherService topic fd selector.key = none ∧
        ∀ s t fd' k, (m.addSubscriber topic selector fd).2.subscription? s t fd' k =
          if selector.publisherService = s ∧ topic = t ∧ fd = fd' ∧ selector.key = k then some selector
          else m.subscription? s t fd' k) := by
  rcases TopicTables.addSubscriber_cases m.tables topic selector fd with
    ⟨hok, hquiet⟩ | ⟨hok, hsub⟩
  · exact .inl ⟨hok, hquiet.subscription_eq⟩
  · exact .inr ⟨hok, hsub.fresh, hsub.subscription_eq⟩

end

theorem mentions_addSubscriber
    (h : (m.addSubscriber topic selector fd).2.Mentions fd') : fd' = fd ∨ m.Mentions fd' := by
  refine or_iff_not_imp_left.mpr fun hfd => ?_
  rcases TopicTables.addSubscriber_cases m.tables topic selector fd with
    ⟨-, hquiet⟩ | ⟨-, hsub⟩
  · exact mentions_of_indices (fun _ => hquiet.fdPublications_eq ▸ id)
      (fun _ => hquiet.fdSubscriptions_eq ▸ id) (hquiet.fdSubscriptionCounts_eq ▸ id) h
  · refine mentions_of_indices (fun _ => hsub.fdPublications_eq ▸ id) (fun k hhas => ?_)
      ((hsub.counts_of_ne fd' hfd).trans ·) h
    exact ((hsub.has_subscriptions fd' k).mp hhas).resolve_left fun hnew => hfd hnew.1

section
variable (m : TopicManager) (topic : Bytes) (selector : TopicSubscriptionFilter) (fd : Int)

theorem slot?_removeSubscriber (s t i : Bytes) :
    (m.removeSubscriber topic selector fd).slot? s t i = m.slot? s t i := by
  rcases removeSubscriber_cases m.tables topic selector fd with hsame | hgone
  · exact congrArg (fun tables : TopicTables => tables.slot? s t i) hsame
  · exact hgone.slot_eq s t i

theorem subscription?_removeSubscriber (s t : Bytes) (fd' : Int) (k : Bytes) :
    (m.removeSubscriber topic selector fd).subscription? s t fd' k = m.subscription? s t fd' k ∨
      (selector.publisherService = s ∧ topic = t ∧ fd = fd' ∧ selector.key = k ∧
        (m.removeSubscriber topic selector fd).subscription? s t fd' k = none) := by
  rcases removeSubscriber_cases m.tables topic selector fd with hsame | hgone
  · exact .inl (congrArg (fun tables : TopicTables => tables.subscription? s t fd' k) hsame)
  · have heq := hgone.subscription_eq s t fd' k
    split_ifs at heq with hkey
    · exact .inr ⟨hkey.1, hkey.2.1, hkey.2.2.1, hkey.2.2.2, heq⟩
    · exact .inl heq

end

theorem mentions_removeSubscriber
    (h : (m.removeSubscriber topic selector fd).Mentions fd') : m.Mentions fd' := by
  rcases removeSubscriber_cases m.tables topic selector fd with hsame | hgone
  · exact cast (congrArg (fun tables => TopicTables.Mentions tables fd') hsame) h
  · exact mentions_of_indices (fun _ => hgone.fdPublications_eq ▸ id) (hgone.subscriptions_le fd')
      (hgone.counts_le fd') h

theorem slot?_removePublisher (m : TopicManager)
    (htopic : topic ≠ [] ∧ topic.length ≤ maxTopicNameLength) (fd : Int) (s t i : Bytes) :
    (m.removePublisher topic fd).slot? s t i =
      (m.slot? s t i).filter fun slot => !(t = topic ∧ slot.fd = fd) :=
  TopicTables.slot?_removePublisher m.indexed.keyed topic fd htopic s t i

theorem slot?_removePublishersByService (m : TopicManager) (service : Bytes) (fd : Int)
    (s t i : Bytes) :
    (m.removePublishersByService service fd).slot? s t i =
      (m.slot? s t i).filter fun slot => !(s = service ∧ slot.fd = fd) :=
  TopicTables.slot?_removePublishersByService m.indexed.keyed service fd s t i

/-- Taking slots away leaves the subscriptions and brings no connection in. -/
theorem mentions_of_prunes {m m' : TopicManager} (hprunes : Prunes m.tables m'.tables)
    (h : m'.Mentions fd) : m.Mentions fd :=
  mentions_of_indices (hprunes.fdPublications_le fd) (fun _ => hprunes.fdSubscriptions_eq ▸ id)
    (hprunes.fdSubscriptionCounts_eq ▸ id) h

theorem slot?_removeByFd (m : TopicManager) (fd : Int) (s t i : Bytes) :
    (m.removeByFd fd).slot? s t i = (m.slot? s t i).filter fun slot => slot.fd ≠ fd :=
  (forgotten_removeByFd m.indexed fd).slot_eq s t i

theorem subscription?_removeByFd (m : TopicManager) (fd : Int) (s t : Bytes) (fd' : Int) (k : Bytes) :
    (m.removeByFd fd).subscription? s t fd' k = if fd = fd' then none else m.subscription? s t fd' k :=
  (forgotten_removeByFd m.indexed fd).subscription_eq s t fd' k

/-- A forgotten connection occurs nowhere, and no other one is brought in. -/
theorem mentions_removeByFd (h : (m.removeByFd fd).Mentions fd') :
    fd' ≠ fd ∧ m.Mentions fd' := by
  have hgone := forgotten_removeByFd m.indexed fd
  rw [show m.Mentions fd' ↔ _ from mentions_iff m.indexed]
  rcases (mentions_iff (m.removeByFd fd).indexed).mp h with
    ⟨k, hhas⟩ | ⟨k, hhas⟩ | hcounts
  · obtain ⟨hne, hold⟩ := (hgone.has_publications fd' k).mp hhas
    exact ⟨hne, .inl ⟨k, hold⟩⟩
  · obtain ⟨hne, hold⟩ := (hgone.has_subscriptions fd' k).mp hhas
    exact ⟨hne, .inr (.inl ⟨k, hold⟩)⟩
  change (m.tables.removeByFd fd).fdSubscriptionCounts[fd']? ≠ none at hcounts
  rw [hgone.counts_eq, Table.getElem?_erase] at hcounts
  split_ifs at hcounts with hfd
  · exact absurd rfl hcounts
  · exact ⟨Ne.symm hfd, .inr (.inr hcounts)⟩

end TopicManager

end OmniBinder.ServiceManager
