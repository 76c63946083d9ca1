/-
Module: OmniBinder.ServiceManager.WatchNotifier
Purpose: The watch groups of `service_manager/service_watch_notifier.cpp` with their two indices, by
  subscriber and by service name. The operations are written on the bare tables.
Trusted boundary: human-reviewed spec
Main exports: ServiceWatchFilter, ServiceWatchNotifier
-/
import OmniBinder.Core.ServiceCodec
import OmniBinder.Lib.Table

namespace OmniBinder.ServiceManager

open SetIndex

structure ServiceWatchFilter where
  serviceName : Bytes
  hostId : Bytes
  instanceId : Bytes
deriving DecidableEq, Repr

structure ServiceWatchGroup where
  subscriberFd : Int
  watchId : UInt64
  filters : List ServiceWatchFilter
deriving DecidableEq, Repr

structure WatchKey where
  fd : Int
  watchId : UInt64
deriving DecidableEq, Repr

namespace WatchKey

/-- The order of the source: by connection, then by watch. -/
instance : Ord WatchKey := ⟨compareLex (compareOn WatchKey.fd) (compareOn WatchKey.watchId)⟩

instance : Std.TransOrd WatchKey :=
  inferInstanceAs (Std.TransCmp (compareLex (compareOn WatchKey.fd) (compareOn WatchKey.watchId)))

instance : Std.LawfulEqOrd WatchKey where
  eq_of_compare := by
    intro a b h
    have hboth : compare a.fd b.fd = .eq ∧ compare a.watchId b.watchId = .eq := by
      simpa [compare, compareLex, compareOn, Ordering.then_eq_eq] using h
    obtain ⟨hfd, hid⟩ := hboth
    cases a
    cases b
    cases Std.LawfulEqOrd.eq_of_compare hfd
    cases Std.LawfulEqOrd.eq_of_compare hid
    rfl

end WatchKey

/-- The host is not compared: it is no part of the identity of an instance. -/
def ServiceWatchFilter.matches (filter : ServiceWatchFilter) (identity : ServiceIdentity) : Bool :=
  if filter.serviceName ≠ identity.name then false
  else if !filter.instanceId.isEmpty ∧ filter.instanceId ≠ identity.instanceId then false
  else true

def ServiceWatchFilter.overlaps (a b : ServiceWatchFilter) : Bool :=
  if a.serviceName ≠ b.serviceName then false
  else if !a.instanceId.isEmpty ∧ !b.instanceId.isEmpty ∧ a.instanceId ≠ b.instanceId then false
  else true

/-- One of the filters of the group matches. -/
def ServiceWatchGroup.matches (group : ServiceWatchGroup) (identity : ServiceIdentity) : Bool :=
  group.filters.any fun filter => filter.matches identity

/-- The bare tables of the notifier. -/
structure WatchTables where
  groups : Table WatchKey ServiceWatchGroup
  serviceIndex : SetIndex Bytes WatchKey
  subscriberIndex : SetIndex Int UInt64

variable {w : WatchTables} {fd : Int} {group : ServiceWatchGroup}

namespace WatchTables

def init : WatchTables := ⟨∅, .empty, .empty⟩

def subscribe (w : WatchTables) (subscriberFd : Int) (watchId : UInt64)
    (filters : List ServiceWatchFilter) : Bool × WatchTables :=
  if subscriberFd < 0 ∨ watchId = 0 ∨ filters = [] then (false, w)
  else
    let key : WatchKey := ⟨subscriberFd, watchId⟩
    match w.groups[key]? with
    | some _ => (false, w)
    | none =>
      (true,
        { groups := w.groups.insert key ⟨subscriberFd, watchId, filters⟩
          serviceIndex := filters.foldl (fun index f => index.add f.serviceName key) w.serviceIndex
          subscriberIndex := w.subscriberIndex.add subscriberFd watchId })

def eraseGroup (w : WatchTables) (key : WatchKey) (group : ServiceWatchGroup) : WatchTables :=
  { groups := w.groups.erase key
    serviceIndex :=
      group.filters.foldl (fun index f => index.remove f.serviceName key) w.serviceIndex
    subscriberIndex := w.subscriberIndex.remove group.subscriberFd group.watchId }

def unsubscribe (w : WatchTables) (subscriberFd : Int) (watchId : UInt64) : Bool × WatchTables :=
  match w.groups[(⟨subscriberFd, watchId⟩ : WatchKey)]? with
  | none => (false, w)
  | some group => (true, w.eraseGroup ⟨subscriberFd, watchId⟩ group)

/-- The loop runs over a copy of the identifiers. -/
def removeSubscriber (w : WatchTables) (subscriberFd : Int) : WatchTables :=
  (w.subscriberIndex.values subscriberFd).foldl
    (fun w watchId => (w.unsubscribe subscriberFd watchId).2) w

/-- The groups that want to hear of an instance, in the order of their keys. -/
def matching (w : WatchTables) (identity : ServiceIdentity) : List ServiceWatchGroup :=
  (w.serviceIndex.values identity.name).filterMap fun key =>
    w.groups[key]?.filter fun group => group.matches identity

/-! ### The indices are exact -/

/-- Every group is stored under its own key, and each index lists exactly the groups that there are. -/
structure Indexed (w : WatchTables) : Prop where
  stored_under : ∀ {key : WatchKey} {group : ServiceWatchGroup}, w.groups[key]? = some group →
    group.subscriberFd = key.fd ∧ group.watchId = key.watchId
  subscriber : ∀ fd watchId, w.subscriberIndex.Has fd watchId ↔
    ∃ group, w.groups[(⟨fd, watchId⟩ : WatchKey)]? = some group
  service : ∀ name key, w.serviceIndex.Has name key ↔
    ∃ group : ServiceWatchGroup, w.groups[key]? = some group ∧ ∃ f ∈ group.filters, f.serviceName = name

theorem indexed_init : init.Indexed where
  stored_under := by simp [init]
  subscriber := by simp [init, not_has_empty]
  service := by simp [init, not_has_empty]

theorem has_foldl_add (filters : List ServiceWatchFilter) (key key' : WatchKey) (name : Bytes)
    (index : SetIndex Bytes WatchKey) :
    (filters.foldl (fun index f => index.add f.serviceName key) index).Has name key' ↔
      (key' = key ∧ ∃ f ∈ filters, f.serviceName = name) ∨ index.Has name key' := by
  induction filters generalizing index with
  | nil => simp
  | cons f filters ih =>
    rw [List.foldl_cons, ih, has_add]
    simp only [List.mem_cons, exists_eq_or_imp, eq_comm (a := name)]
    by_cases hkey : key' = key
    · by_cases hname : f.serviceName = name
      · simp [hkey, hname]
      · simp [hkey, hname]
    · simp [hkey]

theorem groups_subscribe {watchId : UInt64} {filters : List ServiceWatchFilter}
    (hok : (w.subscribe fd watchId filters).1 = true) :
    w.groups[(⟨fd, watchId⟩ : WatchKey)]? = none ∧ filters ≠ [] ∧
      (w.subscribe fd watchId filters).2.groups =
        w.groups.insert ⟨fd, watchId⟩ ⟨fd, watchId, filters⟩ := by
  unfold subscribe at hok ⊢
  split_ifs at hok ⊢ with hbad
  simp only at hok ⊢
  split at hok
  · simp at hok
  · next hnone => exact ⟨hnone, fun hnil => hbad (.inr (.inr hnil)), by simp⟩

theorem subscribe_refused {watchId : UInt64} {filters : List ServiceWatchFilter}
    (hno : (w.subscribe fd watchId filters).1 = false) : (w.subscribe fd watchId filters).2 = w := by
  unfold subscribe at hno ⊢
  split_ifs at hno ⊢
  · rfl
  · simp only at hno ⊢
    split at hno
    · rfl
    · simp at hno

theorem indexed_subscribe (h : w.Indexed) (fd : Int) (watchId : UInt64)
    (filters : List ServiceWatchFilter) : (w.subscribe fd watchId filters).2.Indexed := by
  unfold subscribe
  split_ifs
  · exact h
  simp only
  split
  · exact h
  next hnone =>
  refine ⟨fun {key group} hgroup => ?_, fun fd' watchId' => ?_, fun name key => ?_⟩
  · rcases Table.of_insert hgroup with ⟨rfl, rfl⟩ | ⟨-, hgroup⟩
    · exact ⟨rfl, rfl⟩
    · exact h.stored_under hgroup
  · rw [has_add, h.subscriber, Table.getElem?_insert]
    by_cases hkey : (⟨fd, watchId⟩ : WatchKey) = ⟨fd', watchId'⟩
    · cases hkey
      simp
    · have hne : ¬ (fd' = fd ∧ watchId' = watchId) := by
        rintro ⟨rfl, rfl⟩
        exact hkey rfl
      simp [hkey, hne]
  · rw [has_foldl_add, h.service, Table.getElem?_insert]
    by_cases hkey : (⟨fd, watchId⟩ : WatchKey) = key
    · subst hkey
      simp [hnone]
    · simp [hkey, Ne.symm hkey]

theorem indexed_eraseGroup (h : w.Indexed) {key : WatchKey} (hgroup : w.groups[key]? = some group) :
    (w.eraseGroup key group).Indexed := by
  obtain ⟨hfd, hid⟩ := h.stored_under hgroup
  refine ⟨fun {key' group'} hgroup' => ?_, fun fd' watchId' => ?_, fun name key' => ?_⟩
  · exact h.stored_under (Table.of_erase hgroup').2
  · simp only [eraseGroup, Table.getElem?_erase, has_remove, h.subscriber, hfd, hid]
    by_cases hkey : key = ⟨fd', watchId'⟩
    · subst hkey
      simp
    · have hne : ¬ (fd' = key.fd ∧ watchId' = key.watchId) := by
        rintro ⟨rfl, rfl⟩
        exact hkey rfl
      simp [hkey, hne]
  · simp only [eraseGroup, Table.getElem?_erase, has_foldl_remove, h.service]
    by_cases hkey : key = key'
    · subst hkey
      simp [hgroup]
    · simp [hkey, Ne.symm hkey]

theorem indexed_unsubscribe (h : w.Indexed) (fd : Int) (watchId : UInt64) :
    (w.unsubscribe fd watchId).2.Indexed := by
  unfold unsubscribe
  split
  · exact h
  · next group hgroup => exact indexed_eraseGroup h hgroup

theorem groups_unsubscribe (w : WatchTables) (fd : Int) (watchId : UInt64) (key : WatchKey) :
    (w.unsubscribe fd watchId).2.groups[key]? =
      if (⟨fd, watchId⟩ : WatchKey) = key then none else w.groups[key]? := by
  unfold unsubscribe
  split
  · next hnone =>
    split_ifs with hkey
    · rw [← hkey, hnone]
    · rfl
  · exact Table.getElem?_erase _ _ _

/-- The loop of `removeSubscriber` over any list of identifiers. -/
theorem unsubscribe_all (h : w.Indexed) (fd : Int) (ids : List UInt64) :
    (ids.foldl (fun w watchId => (w.unsubscribe fd watchId).2) w).Indexed ∧
      ∀ key : WatchKey, (ids.foldl (fun w watchId => (w.unsubscribe fd watchId).2) w).groups[key]? =
        if key.fd = fd ∧ key.watchId ∈ ids then none else w.groups[key]? := by
  induction ids generalizing w with
  | nil => exact ⟨h, by simp⟩
  | cons watchId ids ih =>
    obtain ⟨hindexed, hgroups⟩ := ih (indexed_unsubscribe h fd watchId)
    refine ⟨hindexed, fun key => ?_⟩
    rw [List.foldl_cons, hgroups, groups_unsubscribe]
    by_cases hkey : (⟨fd, watchId⟩ : WatchKey) = key
    · subst hkey
      simp
    have hne : ¬ (key.fd = fd ∧ key.watchId = watchId) := by
      rintro ⟨rfl, rfl⟩
      exact hkey rfl
    simp only [hkey, if_false, List.mem_cons]
    refine if_congr ⟨fun hlater => ⟨hlater.1, .inr hlater.2⟩, fun hany => ⟨hany.1, ?_⟩⟩ rfl rfl
    exact hany.2.resolve_left fun heq => hne ⟨hany.1, heq⟩

end WatchTables

/-! ### The notifier -/

/-- The watch groups: the tables, with indices that are exact. -/
structure ServiceWatchNotifier where
  tables : WatchTables
  indexed : tables.Indexed

namespace ServiceWatchNotifier

open WatchTables

def init : ServiceWatchNotifier := ⟨.init, indexed_init⟩

/-- The group a subscriber keeps under an identifier. -/
def group? (w : ServiceWatchNotifier) (key : WatchKey) : Option ServiceWatchGroup :=
  w.tables.groups[key]?

def subscribe (w : ServiceWatchNotifier) (subscriberFd : Int) (watchId : UInt64)
    (filters : List ServiceWatchFilter) : Bool × ServiceWatchNotifier :=
  ((w.tables.subscribe subscriberFd watchId filters).1,
    ⟨(w.tables.subscribe subscriberFd watchId filters).2, indexed_subscribe w.indexed _ _ _⟩)

def unsubscribe (w : ServiceWatchNotifier) (subscriberFd : Int) (watchId : UInt64) :
    ServiceWatchNotifier :=
  ⟨(w.tables.unsubscribe subscriberFd watchId).2, indexed_unsubscribe w.indexed _ _⟩

def removeSubscriber (w : ServiceWatchNotifier) (subscriberFd : Int) : ServiceWatchNotifier :=
  ⟨w.tables.removeSubscriber subscriberFd, (unsubscribe_all w.indexed subscriberFd _).1⟩

def matching (w : ServiceWatchNotifier) (identity : ServiceIdentity) : List ServiceWatchGroup :=
  w.tables.matching identity

/-- The connection occurs in one of the tables. -/
def Mentions (w : ServiceWatchNotifier) (fd : Int) : Prop :=
  w.tables.subscriberIndex.hasKey fd = true ∨ (∃ name key, w.tables.serviceIndex.Has name key ∧
    key.fd = fd) ∨ ∃ key group, w.group? key = some group ∧ (key.fd = fd ∨ group.subscriberFd = fd)

variable {w : ServiceWatchNotifier}

/-- A connection occurs in the tables exactly when it keeps a group. -/
theorem mentions_iff :
    w.Mentions fd ↔ ∃ watchId group, w.group? ⟨fd, watchId⟩ = some group := by
  constructor
  · rintro (hkey | ⟨name, key, hkey, rfl⟩ | ⟨key, group, hgroup, hfd⟩)
    · obtain ⟨watchId, hhas⟩ := hasKey_iff.mp hkey
      exact ⟨watchId, (w.indexed.subscriber fd watchId).mp hhas⟩
    · obtain ⟨group, hgroup, -⟩ := (w.indexed.service name key).mp hkey
      exact ⟨key.watchId, group, hgroup⟩
    · rcases hfd with rfl | rfl
      · exact ⟨key.watchId, group, hgroup⟩
      · rw [(w.indexed.stored_under hgroup).1]
        exact ⟨key.watchId, group, hgroup⟩
  · rintro ⟨watchId, group, hgroup⟩
    exact .inr (.inr ⟨⟨fd, watchId⟩, group, hgroup, .inl rfl⟩)

theorem stored_under {key : WatchKey} (h : w.group? key = some group) :
    group.subscriberFd = key.fd ∧ group.watchId = key.watchId :=
  w.indexed.stored_under h

@[simp]
theorem group?_init (key : WatchKey) : init.group? key = none := by
  simp [group?, init, WatchTables.init]

section
variable (w : ServiceWatchNotifier) (fd : Int)

/-- A subscription is refused without effect, or adds its group under a key that was free. -/
theorem subscribe_cases (watchId : UInt64) (filters : List ServiceWatchFilter) :
    ((w.subscribe fd watchId filters).1 = false ∧ (w.subscribe fd watchId filters).2 = w) ∨
      ((w.subscribe fd watchId filters).1 = true ∧ w.group? ⟨fd, watchId⟩ = none ∧
        ∀ key, (w.subscribe fd watchId filters).2.group? key =
          if (⟨fd, watchId⟩ : WatchKey) = key then some ⟨fd, watchId, filters⟩ else w.group? key) := by
  cases hok : (w.tables.subscribe fd watchId filters).1 with
  | false =>
    refine .inl ⟨hok, ?_⟩
    have hsame := subscribe_refused hok
    cases w
    simp only [subscribe]
    congr
  | true =>
    obtain ⟨hnone, -, hgroups⟩ := groups_subscribe hok
    refine .inr ⟨hok, hnone, fun key => ?_⟩
    simp only [group?, subscribe, hgroups]
    exact Table.getElem?_insert _ _ _ _

theorem group?_unsubscribe (watchId : UInt64) (key : WatchKey) : (w.unsubscribe fd watchId).group? key =
      if (⟨fd, watchId⟩ : WatchKey) = key then none else w.group? key :=
  groups_unsubscribe w.tables fd watchId key

theorem group?_removeSubscriber (key : WatchKey) :
    (w.removeSubscriber fd).group? key = if key.fd = fd then none else w.group? key := by
  refine ((unsubscribe_all w.indexed fd _).2 key).trans ?_
  by_cases hfd : key.fd = fd
  · subst hfd
    simp only [true_and, if_true]
    split_ifs with hlisted
    · rfl
    -- a group that is not listed for its subscriber does not exist
    cases hgroup : w.tables.groups[key]? with
    | none => rfl
    | some group =>
      refine absurd (mem_values.mpr ?_) hlisted
      exact (w.indexed.subscriber key.fd key.watchId).mpr ⟨group, hgroup⟩
  · simp [hfd, group?]

end

theorem mem_matching {identity : ServiceIdentity} :
    group ∈ w.matching identity ↔ ∃ key, w.group? key = some group ∧ group.matches identity = true := by
  unfold matching WatchTables.matching
  rw [List.mem_filterMap]
  constructor
  · rintro ⟨key, -, hgroup⟩
    obtain ⟨hgroup, hmatch⟩ := Option.filter_eq_some_iff.mp hgroup
    exact ⟨key, hgroup, hmatch⟩
  · rintro ⟨key, hgroup, hmatch⟩
    refine ⟨key, mem_values.mpr ?_, Option.filter_eq_some_iff.mpr ⟨hgroup, hmatch⟩⟩
    obtain ⟨f, hf, hfmatch⟩ := List.any_eq_true.mp hmatch
    have hname : f.serviceName = identity.name := by
      by_contra hne
      simp [ServiceWatchFilter.matches, hne] at hfmatch
    exact (w.indexed.service _ key).mpr ⟨group, hgroup, f, hf, hname⟩

end ServiceWatchNotifier

end OmniBinder.ServiceManager
