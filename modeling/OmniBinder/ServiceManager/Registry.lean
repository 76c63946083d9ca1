/-
Module: OmniBinder.ServiceManager.Registry
Purpose: The service registry of `service_manager/service_registry.cpp`: the registered instances by
  name and instance key, and the index from a control connection to the instances it owns. The two tables
  agree after every sequence of operations.
Trusted boundary: human-reviewed spec
Main exports: ServiceRegistry, registry_exact
-/
import Mathlib.Data.List.Nodup
import OmniBinder.Core.ServiceCodec
import OmniBinder.Lib.Table
import OmniBinder.Lib.Machine

namespace OmniBinder.ServiceManager

open List NestedTable

structure ServiceEntry where
  info : ServiceInfo
  handle : UInt32
  controlFd : Int
deriving DecidableEq, Repr

@[ext]
structure ServiceIdentityRef where
  name : Bytes
  instanceKey : Bytes
deriving DecidableEq, Repr

def invalidHandle : UInt32 := 0

/-- The bare tables of the registry. -/
structure RegistryTables where
  servicesByName : NestedTable Bytes Bytes ServiceEntry
  fdToServices : ListIndex Int ServiceIdentityRef
  nextHandle : UInt32

variable {r : RegistryTables} {name : Bytes} {entry : ServiceEntry} {info : ServiceInfo} {fd : Int}

namespace RegistryTables

def init : RegistryTables := ⟨.empty, .empty, 1⟩

/-- Handles are never the invalid one, also after the counter has wrapped. -/
def generateHandle (r : RegistryTables) : UInt32 × RegistryTables :=
  if r.nextHandle = invalidHandle then
    (r.nextHandle + 1, { r with nextHandle := r.nextHandle + 2 })
  else (r.nextHandle, { r with nextHandle := r.nextHandle + 1 })

def findEntry (r : RegistryTables) (name instanceKey : Bytes) : Option ServiceEntry :=
  r.servicesByName.get? name instanceKey

/-- The first occurrence of the reference goes. -/
def removeFromFdIndex (r : RegistryTables) (fd : Int) (name instanceKey : Bytes) : RegistryTables :=
  { r with fdToServices := r.fdToServices.update fd (·.erase ⟨name, instanceKey⟩) }

def removeEntryByName (r : RegistryTables) (name instanceKey : Bytes) : Bool × RegistryTables :=
  match r.findEntry name instanceKey with
  | none => (false, r)
  | some entry =>
    let r := r.removeFromFdIndex entry.controlFd name instanceKey
    (true, { r with servicesByName := r.servicesByName.erase name instanceKey })

/-- What a registration can be refused for. -/
def acceptable (info : ServiceInfo) : Bool :=
  !info.name.isEmpty && info.name.length ≤ maxServiceNameLength
    && info.hostId.length ≤ maxServiceNameLength && info.instanceId.length ≤ maxServiceNameLength

/-- The handle, and the connection that owned the instance before when that is another one (-1 when
    there is none). An instance that is already registered keeps its handle. -/
def addService (r : RegistryTables) (info : ServiceInfo) (controlFd : Int) :
    UInt32 × Int × RegistryTables :=
  if !acceptable info then (invalidHandle, -1, r)
  else
    let instanceKey := makeServiceInstanceKey info.instanceId
    match r.findEntry info.name instanceKey with
    | some old =>
      let r := { r with
        servicesByName := r.servicesByName.set info.name instanceKey
          { old with info := info, controlFd := controlFd } }
      if old.controlFd ≠ controlFd then
        let r := r.removeFromFdIndex old.controlFd info.name instanceKey
        (old.handle, old.controlFd,
          { r with fdToServices := r.fdToServices.push controlFd ⟨info.name, instanceKey⟩ })
      else (old.handle, -1, r)
    | none =>
      let (handle, r) := r.generateHandle
      (handle, -1,
        { r with
          servicesByName := r.servicesByName.set info.name instanceKey ⟨info, handle, controlFd⟩
          fdToServices := r.fdToServices.push controlFd ⟨info.name, instanceKey⟩ })

def removeServiceByIdentity (r : RegistryTables) (identity : ServiceIdentity) :
    Bool × RegistryTables :=
  r.removeEntryByName identity.name (makeServiceInstanceKey identity.instanceId)

/-- The first instance of a service goes. -/
def removeService (r : RegistryTables) (name : Bytes) : Bool × RegistryTables :=
  match (r.servicesByName.entries name).head? with
  | none => (false, r)
  | some (instanceKey, _) => r.removeEntryByName name instanceKey

/-- The loop of `removeByFd` over the copied references. -/
def removeRefs : List ServiceIdentityRef → NestedTable Bytes Bytes ServiceEntry →
    List ServiceIdentity × NestedTable Bytes Bytes ServiceEntry
  | [], services => ([], services)
  | ref :: refs, services =>
    match services.get? ref.name ref.instanceKey with
    | none => removeRefs refs services
    | some entry =>
      let (removed, services) := removeRefs refs (services.erase ref.name ref.instanceKey)
      (entry.info.identity :: removed, services)

def removeByFd (r : RegistryTables) (fd : Int) : List ServiceIdentity × RegistryTables :=
  let (removed, services) := removeRefs (r.fdToServices.values fd) r.servicesByName
  (removed, { r with servicesByName := services, fdToServices := r.fdToServices.eraseKey fd })

/-- The first instance of a service. -/
def findService (r : RegistryTables) (name : Bytes) : Option ServiceEntry :=
  (r.servicesByName.entries name).head?.map Prod.snd

def findServiceByIdentity (r : RegistryTables) (identity : ServiceIdentity) : Option ServiceEntry :=
  r.findEntry identity.name (makeServiceInstanceKey identity.instanceId)

/-- The first instance of a service that the connection owns. -/
def findServiceByFdAndName (r : RegistryTables) (fd : Int) (name : Bytes) : Option ServiceEntry :=
  (r.fdToServices.values fd).findSome? fun ref =>
    if ref.name ≠ name then none else r.findEntry ref.name ref.instanceKey

def listServices (r : RegistryTables) : List ServiceInfo :=
  r.servicesByName.toList.map fun (_, _, entry) => entry.info

def listServiceInstances (r : RegistryTables) (name : Bytes) : List ServiceInfo :=
  (r.servicesByName.entries name).map fun (_, entry) => entry.info

/-- Every name once, in the order of registration. -/
def listServiceNamesByFd (r : RegistryTables) (fd : Int) : List Bytes :=
  (r.fdToServices.values fd).foldl
    (fun names ref => if ref.name ∈ names then names else names ++ [ref.name]) []

/-! ### The index is exact -/

/-- A connection is listed with exactly the instances it owns, each once, and every instance is stored
    under its own name and key and has a valid handle. -/
structure Indexed (r : RegistryTables) : Prop where
  mem_refs : ∀ fd ref, ref ∈ r.fdToServices.values fd ↔
    ∃ entry, r.findEntry ref.name ref.instanceKey = some entry ∧ entry.controlFd = fd
  nodup_refs : ∀ fd, (r.fdToServices.values fd).Nodup
  stored_under : ∀ {name key entry}, r.findEntry name key = some entry →
    entry.info.name = name ∧ makeServiceInstanceKey entry.info.instanceId = key
  handle_ne : ∀ {name key entry}, r.findEntry name key = some entry → entry.handle ≠ invalidHandle

theorem values_removeFromFdIndex (r : RegistryTables) (fd fd' : Int) (name instanceKey : Bytes) :
    (r.removeFromFdIndex fd name instanceKey).fdToServices.values fd' =
      if fd = fd' then (r.fdToServices.values fd).erase ⟨name, instanceKey⟩
      else r.fdToServices.values fd' :=
  ListIndex.values_update _ _ _ rfl

/-- The index of an instance that is listed for nobody any more, and the others as before. -/
structure Unlisted (r : RegistryTables) (ref : ServiceIdentityRef)
    (index : ListIndex Int ServiceIdentityRef) : Prop where
  mem_iff : ∀ fd other, other ∈ index.values fd ↔ other ≠ ref ∧ other ∈ r.fdToServices.values fd
  nodup : ∀ fd, (index.values fd).Nodup

section
variable (ref : ServiceIdentityRef)

theorem Indexed.unlisted_removed (h : r.Indexed)
    (hentry : r.findEntry ref.name ref.instanceKey = some entry) :
    r.Unlisted ref (r.removeFromFdIndex entry.controlFd ref.name ref.instanceKey).fdToServices := by
  refine ⟨fun fd other => ?_, fun fd => ?_⟩ <;> rw [values_removeFromFdIndex] <;>
    split_ifs with hfd
  · subst hfd
    rw [(h.nodup_refs _).mem_erase_iff]
  · refine ⟨fun hmem => ⟨?_, hmem⟩, And.right⟩
    rintro rfl
    obtain ⟨entry', hentry', howner⟩ := (h.mem_refs fd _).mp hmem
    rw [hentry] at hentry'
    cases hentry'
    exact hfd howner
  · exact (h.nodup_refs _).erase _
  · exact h.nodup_refs fd

theorem Indexed.unlisted_none (h : r.Indexed) (hnone : r.findEntry ref.name ref.instanceKey = none) :
    r.Unlisted ref r.fdToServices := by
  refine ⟨fun fd other => ⟨fun hmem => ⟨?_, hmem⟩, And.right⟩, h.nodup_refs⟩
  rintro rfl
  obtain ⟨entry, hentry, -⟩ := (h.mem_refs fd _).mp hmem
  cases hnone.symm.trans hentry

variable {ref}

/-- The instance is listed again, for one connection. -/
theorem Unlisted.push {index : ListIndex Int ServiceIdentityRef} (h : r.Unlisted ref index) (fd : Int) :
    (∀ fd' other, other ∈ (index.push fd ref).values fd' ↔
      (other = ref ∧ fd' = fd) ∨ (other ≠ ref ∧ other ∈ r.fdToServices.values fd')) ∧
    ∀ fd', ((index.push fd ref).values fd').Nodup := by
  refine ⟨fun fd' other => ?_, fun fd' => ?_⟩ <;> rw [ListIndex.values_push] <;> split_ifs with hsame
  · subst hsame
    rw [mem_append, mem_singleton, h.mem_iff, or_comm, and_iff_left rfl]
  · rw [h.mem_iff, or_iff_right fun hboth => hsame hboth.2.symm]
  · refine nodup_append.mpr ⟨h.nodup fd, pairwise_singleton _ _, fun other hother ref' href' => ?_⟩
    rw [mem_singleton.mp href']
    exact ((h.mem_iff fd other).mp hother).1
  · exact h.nodup fd'

end

theorem indexed_init : init.Indexed where
  mem_refs := by simp [init, findEntry]
  nodup_refs := by simp [init]
  stored_under := by simp [init, findEntry]
  handle_ne := by simp [init, findEntry]

/-! ### Registering -/

/-- The instance a registration is for. -/
def refOf (info : ServiceInfo) : ServiceIdentityRef :=
  ⟨info.name, makeServiceInstanceKey info.instanceId⟩

theorem findEntry_set (r : RegistryTables) (name key n k : Bytes) (entry : ServiceEntry)
    (index : ListIndex Int ServiceIdentityRef) (next : UInt32) :
    (RegistryTables.mk (r.servicesByName.set name key entry) index next).findEntry n k =
      if name = n ∧ key = k then some entry else r.findEntry n k :=
  get?_set _ _ _ _ _ _

theorem fdToServices_generateHandle (r : RegistryTables) :
    r.generateHandle.2.fdToServices = r.fdToServices := by
  unfold generateHandle
  split_ifs <;> rfl

theorem servicesByName_generateHandle (r : RegistryTables) :
    r.generateHandle.2.servicesByName = r.servicesByName := by
  unfold generateHandle
  split_ifs <;> rfl

theorem generateHandle_ne (r : RegistryTables) : r.generateHandle.1 ≠ invalidHandle := by
  unfold generateHandle
  split_ifs with hwrap
  · have hnext : invalidHandle + 1 ≠ invalidHandle := by decide
    exact hwrap ▸ hnext
  · exact hwrap

/-- What a registration that is not refused leaves behind: the instance is stored for its new owner
    and listed there only. -/
structure Registered (r : RegistryTables) (info : ServiceInfo) (fd : Int) (r' : RegistryTables) :
    Prop where
  findEntry_eq : ∃ handle, handle ≠ invalidHandle ∧ ∀ n k, r'.findEntry n k =
    if (refOf info).name = n ∧ (refOf info).instanceKey = k then some ⟨info, handle, fd⟩
    else r.findEntry n k
  mem_refs : ∀ fd' ref, ref ∈ r'.fdToServices.values fd' ↔
    (ref = refOf info ∧ fd' = fd) ∨ (ref ≠ refOf info ∧ ref ∈ r.fdToServices.values fd')
  nodup_refs : ∀ fd', (r'.fdToServices.values fd').Nodup

theorem Registered.indexed {r' : RegistryTables} (h : r.Indexed) (hreg : Registered r info fd r') :
    r'.Indexed := by
  obtain ⟨handle, hvalid, hfind⟩ := hreg.findEntry_eq
  refine ⟨fun fd' ref => ?_, hreg.nodup_refs, fun {name key entry} hentry => ?_,
    fun {name key entry} hentry => ?_⟩
  · rw [hreg.mem_refs, hfind]
    split_ifs with href <;> rw [← ServiceIdentityRef.ext_iff] at href
    · subst href
      simp [eq_comm]
    · simpa [Ne.symm href] using h.mem_refs fd' ref
  · rw [hfind] at hentry
    split_ifs at hentry with hsame
    · cases hentry
      exact hsame
    · exact h.stored_under hentry
  · rw [hfind] at hentry
    split_ifs at hentry
    · cases hentry
      exact hvalid
    · exact h.handle_ne hentry

theorem addService_registered (h : r.Indexed) (fd : Int) (haccept : acceptable info = true) :
    Registered r info fd (r.addService info fd).2.2 := by
  unfold addService
  simp only [haccept, Bool.not_true, Bool.false_eq_true, if_false]
  cases hfound : r.findEntry info.name (makeServiceInstanceKey info.instanceId) with
  | none =>
    simp only [servicesByName_generateHandle, fdToServices_generateHandle]
    obtain ⟨hmem, hnodup⟩ := (h.unlisted_none (refOf info) hfound).push fd
    exact ⟨⟨r.generateHandle.1, r.generateHandle_ne, fun n k => findEntry_set r _ _ n k _ _ _⟩, hmem,
      hnodup⟩
  | some old =>
    dsimp only
    split_ifs with hfd
    · -- the instance moves to another connection
      obtain ⟨hmem, hnodup⟩ := (h.unlisted_removed (refOf info) hfound).push fd
      exact ⟨⟨old.handle, h.handle_ne hfound, fun n k => findEntry_set r _ _ n k _ _ _⟩, hmem, hnodup⟩
    -- the owner registers it again
    have hfd : old.controlFd = fd := not_not.mp hfd
    refine ⟨⟨old.handle, h.handle_ne hfound, fun n k => findEntry_set r _ _ n k _ _ _⟩,
      fun fd' ref => ?_, h.nodup_refs⟩
    by_cases href : ref = refOf info
    · subst href
      simp only [ne_eq, not_true, false_and, or_false, true_and]
      refine (h.mem_refs fd' _).trans ⟨?_, fun heq => ⟨old, hfound, hfd.trans heq.symm⟩⟩
      rintro ⟨entry, hentry, howner⟩
      cases hentry.symm.trans hfound
      exact howner.symm.trans hfd
    · simp [href]

theorem addService_refused (r : RegistryTables) (fd : Int) (hrefused : acceptable info = false) :
    r.addService info fd = (invalidHandle, -1, r) := by
  unfold addService
  simp [hrefused]

theorem indexed_addService (h : r.Indexed) (info : ServiceInfo) (fd : Int) :
    (r.addService info fd).2.2.Indexed := by
  cases haccept : acceptable info with
  | true => exact (addService_registered h fd haccept).indexed h
  | false =>
    rw [addService_refused r fd haccept]
    exact h

/-! ### Removing -/

theorem removeEntryByName_fst (r : RegistryTables) (name key : Bytes) :
    (r.removeEntryByName name key).1 = (r.findEntry name key).isSome := by
  unfold removeEntryByName
  split
  · next hnone => simp [hnone]
  · next entry hsome => simp [hsome]

theorem findEntry_removeEntryByName (r : RegistryTables) (name key n k : Bytes) :
    (r.removeEntryByName name key).2.findEntry n k =
      if name = n ∧ key = k then none else r.findEntry n k := by
  unfold removeEntryByName
  split
  · next hnone =>
    split_ifs with hsame
    · rw [← hsame.1, ← hsame.2, hnone]
    · rfl
  · exact get?_erase _ _ _ _ _

theorem indexed_removeEntryByName (h : r.Indexed) (name key : Bytes) :
    (r.removeEntryByName name key).2.Indexed := by
  have hindex : r.Unlisted ⟨name, key⟩ (r.removeEntryByName name key).2.fdToServices := by
    unfold removeEntryByName
    split
    · next hnone => exact h.unlisted_none _ hnone
    · next entry hsome => exact h.unlisted_removed ⟨name, key⟩ hsome
  refine ⟨fun fd ref => ?_, hindex.nodup, fun {n k entry} hentry => ?_, fun {n k entry} hentry => ?_⟩
  · rw [findEntry_removeEntryByName, hindex.mem_iff, h.mem_refs, ne_comm, ne_eq,
      ServiceIdentityRef.ext_iff]
    split_ifs with hsame
    · simp [hsame]
    · exact and_iff_right hsame
  · rw [findEntry_removeEntryByName] at hentry
    split_ifs at hentry
    exact h.stored_under hentry
  · rw [findEntry_removeEntryByName] at hentry
    split_ifs at hentry
    exact h.handle_ne hentry

theorem get?_removeRefs (refs : List ServiceIdentityRef)
    (services : NestedTable Bytes Bytes ServiceEntry) (n k : Bytes) :
    (removeRefs refs services).2.get? n k = if ⟨n, k⟩ ∈ refs then none else services.get? n k := by
  induction refs generalizing services with
  | nil => simp [removeRefs]
  | cons ref refs ih =>
    rw [removeRefs]
    split
    · next hnone =>
      rw [ih]
      by_cases href : ref = ⟨n, k⟩
      · subst href
        simp [hnone]
      · simp [Ne.symm href]
    · next entry hsome =>
      rw [ih, get?_erase]
      by_cases href : ref = ⟨n, k⟩
      · simp [href]
      · have hother : ¬ (ref.name = n ∧ ref.instanceKey = k) := fun hboth =>
          href (ServiceIdentityRef.ext_iff.mpr hboth)
        simp [Ne.symm href, hother]

/-- The loop reports what it finds; no reference is found twice. -/
theorem removeRefs_fst {refs : List ServiceIdentityRef} (hnodup : refs.Nodup)
    (services : NestedTable Bytes Bytes ServiceEntry) : (removeRefs refs services).1 =
      refs.filterMap fun ref => (services.get? ref.name ref.instanceKey).map (·.info.identity) := by
  induction refs generalizing services with
  | nil => rfl
  | cons ref refs ih =>
    obtain ⟨hfresh, hnodup⟩ := nodup_cons.mp hnodup
    rw [removeRefs]
    split
    · next hnone => simp [ih hnodup, hnone]
    next entry hsome =>
    rw [filterMap_cons_some (by rw [hsome]; rfl)]
    refine congrArg (_ :: ·) ((ih hnodup _).trans (filterMap_congr fun ref' hmem => ?_))
    -- erasing the first reference does not touch the later ones
    rw [get?_erase, if_neg]
    exact fun hboth => hfresh (ServiceIdentityRef.ext_iff.mpr hboth ▸ hmem)

theorem findEntry_removeByFd (h : r.Indexed) (fd : Int) (n k : Bytes) :
    (r.removeByFd fd).2.findEntry n k =
      (r.findEntry n k).filter fun entry => entry.controlFd ≠ fd := by
  have hget := get?_removeRefs (r.fdToServices.values fd) r.servicesByName n k
  refine Eq.trans hget ?_
  have hmem := h.mem_refs fd ⟨n, k⟩
  change _ = (r.servicesByName.get? n k).filter _
  cases hfound : r.servicesByName.get? n k with
  | none => simp
  | some entry =>
    have hfound' : r.findEntry n k = some entry := hfound
    simp only [hfound', Option.some.injEq, exists_eq_left'] at hmem
    simp [hmem, Option.filter]

theorem indexed_removeByFd (h : r.Indexed) (fd : Int) : (r.removeByFd fd).2.Indexed := by
  refine ⟨fun fd' ref => ?_, fun fd' => ?_, fun {n k entry} hentry => ?_,
    fun {n k entry} hentry => ?_⟩
  · rw [findEntry_removeByFd h]
    refine Iff.trans (b := ref ∈ (r.fdToServices.eraseKey fd).values fd') Iff.rfl ?_
    rw [ListIndex.values_eraseKey]
    simp only [Option.filter_eq_some_iff, decide_eq_true_eq]
    split_ifs with hfd
    · subst hfd
      simp only [not_mem_nil, false_iff]
      rintro ⟨entry, ⟨-, hne⟩, howner⟩
      exact hne howner
    · rw [h.mem_refs]
      constructor
      · rintro ⟨entry, hentry, rfl⟩
        exact ⟨entry, ⟨hentry, Ne.symm hfd⟩, rfl⟩
      · rintro ⟨entry, ⟨hentry, -⟩, howner⟩
        exact ⟨entry, hentry, howner⟩
  · change ((r.fdToServices.eraseKey fd).values fd').Nodup
    rw [ListIndex.values_eraseKey]
    split_ifs
    · exact nodup_nil
    · exact h.nodup_refs fd'
  · rw [findEntry_removeByFd h, Option.filter_eq_some_iff] at hentry
    exact h.stored_under hentry.1
  · rw [findEntry_removeByFd h, Option.filter_eq_some_iff] at hentry
    exact h.handle_ne hentry.1

end RegistryTables

/-! ### The registry -/

/-- The registry: the tables, with an index that is exact. -/
structure ServiceRegistry where
  tables : RegistryTables
  indexed : tables.Indexed

namespace ServiceRegistry

open RegistryTables

def init : ServiceRegistry := ⟨.init, indexed_init⟩

def findEntry (r : ServiceRegistry) (name instanceKey : Bytes) : Option ServiceEntry :=
  r.tables.findEntry name instanceKey

def addService (r : ServiceRegistry) (info : ServiceInfo) (controlFd : Int) :
    UInt32 × Int × ServiceRegistry :=
  ((r.tables.addService info controlFd).1, (r.tables.addService info controlFd).2.1,
    ⟨(r.tables.addService info controlFd).2.2, indexed_addService r.indexed info controlFd⟩)

def removeServiceByIdentity (r : ServiceRegistry) (identity : ServiceIdentity) :
    Bool × ServiceRegistry :=
  ((r.tables.removeServiceByIdentity identity).1,
    ⟨(r.tables.removeServiceByIdentity identity).2, indexed_removeEntryByName r.indexed _ _⟩)

def removeByFd (r : ServiceRegistry) (fd : Int) : List ServiceIdentity × ServiceRegistry :=
  ((r.tables.removeByFd fd).1, ⟨(r.tables.removeByFd fd).2, indexed_removeByFd r.indexed fd⟩)

def findService (r : ServiceRegistry) (name : Bytes) : Option ServiceEntry :=
  r.tables.findService name

def findServiceByIdentity (r : ServiceRegistry) (identity : ServiceIdentity) :
    Option ServiceEntry :=
  r.tables.findServiceByIdentity identity

def findServiceByFdAndName (r : ServiceRegistry) (fd : Int) (name : Bytes) : Option ServiceEntry :=
  r.tables.findServiceByFdAndName fd name

def listServices (r : ServiceRegistry) : List ServiceInfo := r.tables.listServices

def listServiceInstances (r : ServiceRegistry) (name : Bytes) : List ServiceInfo :=
  r.tables.listServiceInstances name

def listServiceNamesByFd (r : ServiceRegistry) (fd : Int) : List Bytes :=
  r.tables.listServiceNamesByFd fd

/-- The connection owns an instance. -/
def Owns (r : ServiceRegistry) (fd : Int) : Prop :=
  ∃ name key entry, r.findEntry name key = some entry ∧ entry.controlFd = fd

/-- A connection is a key of the index exactly when it owns an instance. -/
theorem hasKey_iff_owns (r : ServiceRegistry) (fd : Int) :
    r.tables.fdToServices.hasKey fd = true ↔ r.Owns fd := by
  rw [ListIndex.hasKey_iff]
  constructor
  · intro hne
    obtain ⟨ref, hmem⟩ := exists_mem_of_ne_nil _ hne
    obtain ⟨entry, hentry, howner⟩ := (r.indexed.mem_refs fd ref).mp hmem
    exact ⟨ref.name, ref.instanceKey, entry, hentry, howner⟩
  · rintro ⟨name, key, entry, hentry, howner⟩
    exact ne_nil_of_mem ((r.indexed.mem_refs fd ⟨name, key⟩).mpr ⟨entry, hentry, howner⟩)

variable {r : ServiceRegistry}

theorem stored_under {key : Bytes} (h : r.findEntry name key = some entry) :
    entry.info.name = name ∧ entry.info.instanceId = key :=
  r.indexed.stored_under h

@[simp]
theorem findEntry_init (name key : Bytes) : init.findEntry name key = none := by
  simp [findEntry, RegistryTables.findEntry, init, RegistryTables.init]

section
variable (r : ServiceRegistry)

/-- A registration is refused without effect, or stores the instance for the connection. -/
theorem addService_cases (info : ServiceInfo) (fd : Int) :
    ((r.addService info fd).1 = invalidHandle ∧ (r.addService info fd).2.2 = r) ∨
      ((r.addService info fd).1 ≠ invalidHandle ∧
        ∃ handle, ∀ n k, (r.addService info fd).2.2.findEntry n k =
          if info.name = n ∧ info.instanceId = k then some ⟨info, handle, fd⟩
          else r.findEntry n k) := by
  cases haccept : acceptable info with
  | false =>
    have hrefused := addService_refused r.tables fd haccept
    refine .inl ⟨congrArg Prod.fst hrefused, ?_⟩
    cases r
    simp only [addService]
    congr
    exact congrArg (Prod.snd ∘ Prod.snd) hrefused
  | true =>
    obtain ⟨handle, -, hfind⟩ := (addService_registered r.indexed fd haccept).findEntry_eq
    refine .inr ⟨?_, handle, hfind⟩
    simp only [addService, RegistryTables.addService, haccept]
    simp only [Bool.not_true, Bool.false_eq_true, if_false]
    split
    · next old hold =>
      split_ifs
      · exact r.indexed.handle_ne hold
      · exact r.indexed.handle_ne hold
    · exact generateHandle_ne r.tables

/-- The connection a registration takes an instance from. -/
theorem addService_displaced (info : ServiceInfo) (fd : Int)
    (haccept : (r.addService info fd).1 ≠ invalidHandle) :
    (r.addService info fd).2.1 =
      match r.findEntry info.name info.instanceId with
      | none => -1
      | some old => if old.controlFd ≠ fd then old.controlFd else -1 := by
  have hok : acceptable info = true := by
    by_contra hno
    have hrefused := addService_refused r.tables fd (by simpa using hno)
    exact haccept (congrArg Prod.fst hrefused)
  simp only [addService, RegistryTables.addService, hok, findEntry, makeServiceInstanceKey]
  simp only [Bool.not_true, Bool.false_eq_true, if_false]
  split
  · next old hold =>
    simp only [hold]
    split_ifs
    · rfl
    · rfl
  · next hnone => simp only [hnone]

theorem removeServiceByIdentity_fst (identity : ServiceIdentity) :
    (r.removeServiceByIdentity identity).1 = (r.findEntry identity.name identity.instanceId).isSome :=
  removeEntryByName_fst r.tables _ _

theorem findEntry_removeServiceByIdentity (identity : ServiceIdentity) (n k : Bytes) :
    (r.removeServiceByIdentity identity).2.findEntry n k =
      if identity.name = n ∧ identity.instanceId = k then none else r.findEntry n k :=
  findEntry_removeEntryByName r.tables _ _ n k

theorem findEntry_removeByFd (fd : Int) (n k : Bytes) :
    (r.removeByFd fd).2.findEntry n k =
      (r.findEntry n k).filter fun entry => entry.controlFd ≠ fd :=
  RegistryTables.findEntry_removeByFd r.indexed fd n k

/-- What the removal of a connection reports: the identities of the instances it owned. -/
theorem mem_removeByFd (fd : Int) (identity : ServiceIdentity) : identity ∈ (r.removeByFd fd).1 ↔
      ∃ entry, r.findEntry identity.name identity.instanceId = some entry ∧
        entry.controlFd = fd ∧ entry.info.identity = identity := by
  have hreport := removeRefs_fst (r.indexed.nodup_refs fd) r.tables.servicesByName
  refine (iff_of_eq (congrArg (identity ∈ ·) hreport)).trans (mem_filterMap.trans ?_)
  simp only [Option.map_eq_some_iff]
  constructor
  · rintro ⟨ref, href, entry, hentry, rfl⟩
    obtain ⟨entry', hentry', howner⟩ := (r.indexed.mem_refs fd ref).mp href
    have hsame : entry' = entry := Option.some.inj (hentry'.symm.trans hentry)
    subst hsame
    obtain ⟨hname, hkey⟩ := r.indexed.stored_under hentry'
    refine ⟨entry', ?_, howner, rfl⟩
    change r.findEntry entry'.info.name (makeServiceInstanceKey entry'.info.instanceId) = _
    rw [hname, hkey]
    exact hentry'
  · rintro ⟨entry, hentry, howner, hidentity⟩
    exact ⟨⟨identity.name, identity.instanceId⟩,
      (r.indexed.mem_refs fd _).mpr ⟨entry, hentry, howner⟩, entry, hentry, hidentity⟩

end

theorem findServiceByFdAndName_some
    (h : r.findServiceByFdAndName fd name = some entry) :
    entry.info.name = name ∧ entry.controlFd = fd ∧
      r.findEntry name entry.info.instanceId = some entry := by
  obtain ⟨ref, hmem, hfound⟩ := exists_of_findSome?_eq_some h
  split_ifs at hfound with hname
  have hname : ref.name = name := not_not.mp hname
  obtain ⟨entry', hentry', howner⟩ := (r.indexed.mem_refs fd ref).mp hmem
  have hsame : entry' = entry := Option.some.inj (hentry'.symm.trans hfound)
  subst hsame
  obtain ⟨hstored, hkey⟩ := r.indexed.stored_under hentry'
  refine ⟨hstored.trans hname, howner, ?_⟩
  change r.tables.findEntry name (makeServiceInstanceKey entry'.info.instanceId) = _
  rw [hkey, ← hname]
  exact hentry'

theorem mem_listServiceInstances : info ∈ r.listServiceInstances name ↔
      ∃ key entry, r.findEntry name key = some entry ∧ entry.info = info := by
  unfold listServiceInstances RegistryTables.listServiceInstances
  rw [List.mem_map]
  constructor
  · rintro ⟨⟨key, entry⟩, hmem, rfl⟩
    exact ⟨key, entry, mem_entries.mp hmem, rfl⟩
  · rintro ⟨key, entry, hentry, rfl⟩
    exact ⟨(key, entry), mem_entries.mpr hentry, rfl⟩

end ServiceRegistry

/-- The calls that change the registry. -/
inductive RegistryOperation where
  | addService (info : ServiceInfo) (controlFd : Int)
  | removeService (name : Bytes)
  | removeServiceByIdentity (identity : ServiceIdentity)
  | removeByFd (fd : Int)
deriving DecidableEq, Repr

namespace RegistryTables

def perform (r : RegistryTables) : RegistryOperation → RegistryTables
  | .addService info controlFd => (r.addService info controlFd).2.2
  | .removeService name => (r.removeService name).2
  | .removeServiceByIdentity identity => (r.removeServiceByIdentity identity).2
  | .removeByFd fd => (r.removeByFd fd).2

theorem indexed_removeService {r : RegistryTables} (h : r.Indexed) (name : Bytes) :
    (r.removeService name).2.Indexed := by
  unfold removeService
  split
  · exact h
  · exact indexed_removeEntryByName h name _

theorem indexed_perform (r : RegistryTables) (operation : RegistryOperation) (h : r.Indexed) :
    (r.perform operation).Indexed := by
  cases operation with
  | addService info controlFd => exact indexed_addService h info controlFd
  | removeService name => exact indexed_removeService h name
  | removeServiceByIdentity identity => exact indexed_removeEntryByName h _ _
  | removeByFd fd => exact indexed_removeByFd h fd

/-- No instance is reported twice, since its identity tells the reference it was found under. -/
theorem nodup_removeByFd {r : RegistryTables} (h : r.Indexed) (fd : Int) : (r.removeByFd fd).1.Nodup := by
  have hreport := removeRefs_fst (h.nodup_refs fd) r.servicesByName
  refine hreport ▸ Nodup.filterMap (fun ref ref' identity hfound hfound' => ?_) (h.nodup_refs fd)
  obtain ⟨entry, hentry, rfl⟩ := Option.map_eq_some_iff.mp hfound
  obtain ⟨entry', hentry', hsame⟩ := Option.map_eq_some_iff.mp hfound'
  obtain ⟨hname, hkey⟩ := h.stored_under hentry
  obtain ⟨hname', hkey'⟩ := h.stored_under hentry'
  have hidentity : entry'.info.name = entry.info.name ∧ entry'.info.instanceId = entry.info.instanceId :=
    ⟨congrArg ServiceIdentity.name hsame, congrArg ServiceIdentity.instanceId hsame⟩
  ext1
  · rw [← hname, ← hname', hidentity.1]
  · rw [← hkey, ← hkey', hidentity.2]

end RegistryTables

open RegistryTables

/-- After every sequence of operations, every instance is stored under its own name and key and has a
    handle; its reference is listed once, for the connection that owns it; no row of either table is
    empty; and the removal of a connection reports each of its instances once and removes no other. -/
theorem registry_exact (operations : List RegistryOperation) :
    let r := Machine.run perform .init operations
    (∀ name key entry, r.findEntry name key = some entry →
      entry.info.name = name ∧ makeServiceInstanceKey entry.info.instanceId = key ∧
      entry.handle ≠ invalidHandle ∧ ∀ fd, (r.fdToServices.values fd).count ⟨name, key⟩ =
        if entry.controlFd = fd then 1 else 0) ∧
    (∀ name, r.servicesByName.hasKey name = true → r.servicesByName.entries name ≠ []) ∧
    (∀ fd, r.fdToServices.hasKey fd = true → r.fdToServices.values fd ≠ []) ∧
    ∀ fd, (r.removeByFd fd).1.Nodup ∧
      (∀ identity, identity ∈ (r.removeByFd fd).1 ↔
        ∃ entry, r.findEntry identity.name (makeServiceInstanceKey identity.instanceId) = some entry ∧
          entry.controlFd = fd ∧ entry.info.identity = identity) ∧
      ∀ name key, (r.removeByFd fd).2.findEntry name key =
        (r.findEntry name key).filter fun entry => entry.controlFd ≠ fd := by
  intro r
  have h : r.Indexed := Machine.run_invariant_of_step indexed_perform operations indexed_init
  refine ⟨fun name key entry hentry => ?_, fun name hrow => ?_, fun fd => ListIndex.hasKey_iff.mp,
    fun fd => ⟨nodup_removeByFd h fd, (ServiceRegistry.mk r h).mem_removeByFd fd, findEntry_removeByFd h fd⟩⟩
  · obtain ⟨hname, hkey⟩ := h.stored_under hentry
    refine ⟨hname, hkey, h.handle_ne hentry, fun fd => ?_⟩
    rw [(h.nodup_refs fd).count]
    refine if_congr ?_ rfl rfl
    rw [h.mem_refs]
    simp [hentry]
  · obtain ⟨key, entry, hentry⟩ := hasKey_iff.mp hrow
    exact ne_nil_of_mem (mem_entries.mpr hentry)

end OmniBinder.ServiceManager
