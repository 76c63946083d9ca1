/-
Module: OmniBinder.Proofs.SelectorAgreement
Purpose: A subscription means the same to the runtime that makes it and to the ServiceManager that reads
  it from the request: both match the same publishers and tell the same subscriptions apart. The keys
  that are built from sized texts are injective.
Trusted boundary: none
Main exports: keys_injective, selectors_agree
-/
import OmniBinder.Proofs.RecordRoundTrip
import OmniBinder.Runtime.TopicRuntime
import OmniBinder.ServiceManager.Handlers

namespace OmniBinder

open List ServiceManager SubscriptionSelector

/-- The filter that a selector is to become. -/
def SubscriptionSelector.filter (s : SubscriptionSelector) : TopicSubscriptionFilter :=
  if s.publisherService.isEmpty then .init
  else if s.instanceLevel then ⟨.serviceInstance, s.publisherService, s.hostId, s.instanceId⟩
  else ⟨.service, s.publisherService, [], []⟩

variable {selector other : SubscriptionSelector} {topicName : Bytes} {payload : Buffer}

/-! ### The request -/

theorem writeAll_failed {write : Write} {b : Buffer} (h : write b = (false, b)) (writes : List Write) :
    writeAll (write :: writes) b = (false, b) := by
  rw [writeAll_cons, h]
  rfl

theorem mode_fields (s : SubscriptionSelector) : s.fields.mode ≤ topicSubModeInstance := by
  change (if s.instanceLevel then topicSubModeInstance else topicSubModeService) ≤ _
  split_ifs <;> decide

/-- What is sent has the name and, unless it is empty, the selector. A name that cannot be written
    leaves an empty request at most. -/
theorem bytes_topicRequestPayload
    (h : topicRequestPayload .succeeds topicName selector = some payload) (hsome : payload.bytes ≠ []) :
    ¬ (Layout.text topicName).Oversized ∧ ∃ rest, payload.bytes = (Layout.text topicName).wire ++ rest ∧
      if selector.publisherService.isEmpty then rest = []
      else ¬ selector.fields.layout.Oversized ∧ rest = selector.fields.layout.wire := by
  unfold topicRequestPayload at h
  by_cases hover : (Layout.text topicName).Oversized
  · -- the failure sticks, and the selector is refused
    set failed : Buffer := { Buffer.init with writeFailed := true }
    have hnamed : Buffer.init.writeString .succeeds topicName = (false, failed) := by
      rw [Buffer.writeString, Buffer.writePrefixed, if_pos (by simpa [uint32Max] using hover)]
    have hfirst : failed.writeUint8 .succeeds selector.fields.mode = (false, failed) := rfl
    have hrefused : writeTopicSubscriptionSelector .succeeds selector.fields failed =
        (false, failed) := by
      rw [writeTopicSubscriptionSelector, if_neg (UInt8.not_lt.mpr (mode_fields selector))]
      exact writeAll_failed hfirst _
    rw [hnamed] at h
    simp only [hrefused] at h
    split_ifs at h
    injection h with h
    exact absurd (by rw [← h]; rfl) hsome
  · have hshort : (Layout.text topicName).wire.length ≤ 2 ^ 32 := by
      rw [Layout.oversized_text] at hover
      simp only [Layout.text, length_append, LittleEndian.length_encode]
      omega
    obtain ⟨named, hwrite, hready, hbytes, -⟩ := (emits_writeString topicName).appends hover Buffer.init rfl
      (by simp only [Buffer.init, sizeMax]; omega)
    refine ⟨hover, ?_⟩
    simp only [hwrite] at h
    split_ifs at h ⊢ with hempty
    · cases h
      exact ⟨[], by rw [hbytes, append_nil]; rfl, rfl⟩
    have hemits := emits_writeTopicSubscriptionSelector (mode_fields selector)
    split at h
    · next sent hsent =>
      cases h
      obtain ⟨hfits, hall⟩ := hemits.stores hsent
      refine ⟨_, ?_, hfits, rfl⟩
      rw [hall, hbytes]
      rfl
    · cases h

/-! ### The filter -/

/-- The ServiceManager reads back the topic and the filter that was meant. -/
theorem parsed_filter {msg : ReceivedMessage} {request : Bytes × TopicSubscriptionFilter}
    (hpayload : topicRequestPayload .succeeds topicName selector = some payload)
    (hmsg : msg.payload = payload.bytes) (hparse : parseSubscribeTopicRequest msg = some request) :
    request = (topicName, selector.filter) := by
  have hsome : payload.bytes ≠ [] := by
    intro hnil
    rw [parseSubscribeTopicRequest, hmsg, hnil] at hparse
    cases hparse
  obtain ⟨hname, rest, hbytes, hrest⟩ := bytes_topicRequestPayload hpayload hsome
  rw [parseSubscribeTopicRequest, hmsg, hbytes, View.run,
    View.bind_of_eq_some (reads_textField hname rest)] at hparse
  have hleft : remaining rest = some (rest.length, rest) := rfl
  rw [View.bind_of_eq_some hleft] at hparse
  split_ifs at hparse with hlimits hnone
  · cases hparse
  · -- nothing but the name: no selector was written
    cases hparse
    split_ifs at hrest with hempty
    · rw [SubscriptionSelector.filter, if_pos hempty]
    · exact absurd hnone (by simp [hrest.2, TopicSelectorFields.layout, Layout.join, Layout.fixed])
  · split_ifs at hrest with hempty
    · exact absurd (by rw [hrest]; rfl) hnone
    obtain ⟨hfits, rfl⟩ := hrest
    have hread := reads_readTopicSubscriptionSelector (mode_fields selector) hfits []
    rw [append_nil] at hread
    have hend : remaining [] = some (0, []) := rfl
    rw [View.bind_of_eq_some hread, View.bind_of_eq_some hend, if_neg (by simp)] at hparse
    split_ifs at hparse
    · cases hparse
    · cases hparse
    cases hparse
    rw [SubscriptionSelector.filter, if_neg hempty]
    cases hlevel : selector.instanceLevel with
    | false => simp [TopicSelectorFields.carried, fields, hlevel,
        topicSubscribeMode, topicSubModeService, topicSubModeInstance]
    | true => simp [TopicSelectorFields.carried, fields, hlevel,
        topicSubscribeMode, topicSubModeService, topicSubModeInstance]

theorem matches_filter (s : SubscriptionSelector) (publisher : ServiceInfo) :
    s.filter.matches publisher = s.matches publisher.identity := by
  unfold SubscriptionSelector.filter SubscriptionSelector.matches TopicSubscriptionFilter.matches
  by_cases hempty : s.publisherService.isEmpty
  · simp [hempty, TopicSubscriptionFilter.init]
  by_cases hname : publisher.name = s.publisherService
  · cases hlevel : s.instanceLevel with
    | false => simp [hempty, hname, ServiceInfo.identity]
    | true => simp [hempty, hname, ServiceInfo.identity, Bool.beq_comm]
  · cases hlevel : s.instanceLevel with
    | false => simp [hempty, hname, Ne.symm hname, ServiceInfo.identity]
    | true => simp [hempty, hname, Ne.symm hname, ServiceInfo.identity]

/-! ### The keys -/

/-- What a key is made from, by the kind of the subscription. -/
inductive KeyFields where
  | any
  | service (name : Bytes)
  | serviceInstance (name instanceId : Bytes)
deriving DecidableEq, Repr

def SubscriptionSelector.keyFields (s : SubscriptionSelector) : KeyFields :=
  if s.instanceLevel then .serviceInstance s.publisherService s.instanceId
  else if !s.publisherService.isEmpty then .service s.publisherService
  else .any

def ServiceManager.TopicSubscriptionFilter.keyFields (f : TopicSubscriptionFilter) : KeyFields :=
  match f.mode with
  | .serviceInstance => .serviceInstance f.publisherService f.instanceId
  | .service => .service f.publisherService
  | .topicOnly => .any

/-- A text behind its length and a bar, in front of a rest. -/
def sizedText (text rest : Bytes) : Bytes := decimal text.length ++ 124 :: (text ++ rest)

theorem sizedText_inj {text text' rest rest' : Bytes} :
    sizedText text rest = sizedText text' rest' ↔ text = text' ∧ rest = rest' :=
  sized_append_inj 124 (by decide)

/-- The key made from the fields, with what stands behind the tag and the tag of a subscription to any
    service. -/
def KeyFields.key (bar : Bytes) (anyTag : UInt8) : KeyFields → Bytes
  | any => [anyTag]
  | service name => 83 :: (bar ++ sizedText name [])
  | serviceInstance name instanceId => 73 :: (bar ++ sizedText name (sizedText instanceId []))

theorem KeyFields.key_inj {bar : Bytes} {anyTag : UInt8} (hservice : anyTag ≠ 83) (hinstance : anyTag ≠ 73)
    {fields fields' : KeyFields} : fields.key bar anyTag = fields'.key bar anyTag ↔ fields = fields' := by
  cases fields <;> cases fields' <;>
    simp [key, sizedText_inj, hservice, hservice.symm, hinstance, hinstance.symm]

theorem key_eq_iff : selector.key = other.key ↔ selector.keyFields = other.keyFields := by
  have hkey : ∀ s : SubscriptionSelector, s.key = s.keyFields.key [] 76 := by
    intro s
    unfold key SubscriptionSelector.keyFields
    split_ifs <;> simp [KeyFields.key, sizedText, ascii]
  rw [hkey, hkey, KeyFields.key_inj (by decide) (by decide)]

theorem filter_key_eq_iff {f f' : TopicSubscriptionFilter} :
    f.key = f'.key ↔ f.keyFields = f'.keyFields := by
  have hkey : ∀ f : TopicSubscriptionFilter, f.key = f.keyFields.key [124] 84 := by
    intro f
    unfold TopicSubscriptionFilter.key TopicSubscriptionFilter.keyFields
    cases f.mode <;> simp [KeyFields.key, TopicSubscriptionFilter.sized, sizedText, ascii]
  rw [hkey, hkey, KeyFields.key_inj (by decide) (by decide)]

/-- Different fields give different keys. -/
theorem keys_injective :
    (∀ service topic service' topic', TopicTables.entryKey service topic =
      TopicTables.entryKey service' topic' ↔ service = service' ∧ topic = topic') ∧
    (∀ f f' : TopicSubscriptionFilter, f.key = f'.key ↔ f.keyFields = f'.keyFields) ∧
    (∀ s s' : SubscriptionSelector, s.key = s'.key ↔ s.keyFields = s'.keyFields) ∧
    ∀ identity identity' : ServiceIdentity, makeServiceIdentityKey identity =
      makeServiceIdentityKey identity' ↔
        identity.name = identity'.name ∧ identity.instanceId = identity'.instanceId := by
  refine ⟨fun service topic service' topic' => ⟨TopicTables.entryKey_inj, ?_⟩, fun _ _ => filter_key_eq_iff,
    fun _ _ => key_eq_iff, fun identity identity' => ?_⟩
  · rintro ⟨rfl, rfl⟩
    rfl
  · have hkey : ∀ identity, makeServiceIdentityKey identity =
        sizedText identity.name (124 :: sizedText identity.instanceId []) := by
      intro identity
      simp [makeServiceIdentityKey, sizedText, ascii]
    simp [hkey, sizedText_inj]

/-- The filter of a selector keeps the fields its key is made from. -/
theorem keyFields_filter (h : (selector.publisherService.isEmpty && selector.instanceLevel) = false) :
    selector.filter.keyFields = selector.keyFields := by
  unfold SubscriptionSelector.filter SubscriptionSelector.keyFields
  cases hempty : selector.publisherService.isEmpty <;> cases hlevel : selector.instanceLevel <;>
    simp_all [TopicSubscriptionFilter.keyFields, TopicSubscriptionFilter.init]

theorem key_filter_iff (hs : (selector.publisherService.isEmpty && selector.instanceLevel) = false)
    (ho : (other.publisherService.isEmpty && other.instanceLevel) = false) :
    selector.filter.publisherService = other.filter.publisherService ∧
      selector.filter.key = other.filter.key ↔ selector.key = other.key := by
  rw [filter_key_eq_iff, keyFields_filter hs, keyFields_filter ho, key_eq_iff, and_iff_right_iff_imp]
  unfold SubscriptionSelector.keyFields SubscriptionSelector.filter
  intro hfields
  split_ifs at hfields ⊢ <;> simp_all

/-- `topic` and `filter` are what the ServiceManager reads from the request of a call that passes the
    checks of the runtime. -/
structure SubscribeCall.ReadAs (call : SubscribeCall) (topic : Bytes) (filter : TopicSubscriptionFilter) :
    Prop where
  valid : call.isInvalid = false
  parsed : ∃ payload msg, topicRequestPayload .succeeds call.topicName call.selector = some payload ∧
    msg.payload = payload.bytes ∧ parseSubscribeTopicRequest msg = some (topic, filter)

/-- Both sides match the same publishers, and keep two subscriptions apart or take them for one
    together. -/
theorem selectors_agree {call : SubscribeCall} {topic : Bytes} {filter : TopicSubscriptionFilter}
    (h : call.ReadAs topic filter) :
    (∀ publisher : ServiceInfo,
      filter.matches publisher = call.selector.matches publisher.identity) ∧
    ∀ (call' : SubscribeCall) (topic' : Bytes) (filter' : TopicSubscriptionFilter),
      call'.ReadAs topic' filter' →
        (call.topicName = call'.topicName ∧ call.selector.key = call'.selector.key ↔
          TopicTables.entryKey filter.publisherService topic =
            TopicTables.entryKey filter'.publisherService topic' ∧ filter.key = filter'.key) := by
  obtain ⟨hvalid, payload, msg, hpayload, hmsg, hparse⟩ := h
  obtain ⟨rfl, rfl⟩ := Prod.mk.inj (parsed_filter hpayload hmsg hparse)
  refine ⟨matches_filter _, ?_⟩
  rintro call' topic' filter' ⟨hvalid', payload', msg', hpayload', hmsg', hparse'⟩
  obtain ⟨rfl, rfl⟩ := Prod.mk.inj (parsed_filter hpayload' hmsg' hparse')
  rw [← key_filter_iff hvalid hvalid']
  constructor
  · rintro ⟨htopic, hservice, hkey⟩
    exact ⟨by rw [hservice, htopic], hkey⟩
  · rintro ⟨hentry, hkey⟩
    obtain ⟨hservice, htopic⟩ := TopicTables.entryKey_inj hentry
    exact ⟨htopic, hservice, hkey⟩

/-- One instance of a service, on the topic `t`. -/
theorem instance_selectors_agree :
    (⟨.serviceInstance, ascii "s", [], ascii "i"⟩ : TopicSubscriptionFilter).matches =
      fun publisher => (⟨ascii "s", [], ascii "i", true⟩ : SubscriptionSelector).matches publisher.identity :=
  have h : SubscribeCall.ReadAs ⟨⟨ascii "s", [], ascii "i", true⟩, ascii "t", 0, none, none⟩ (ascii "t")
      ⟨.serviceInstance, ascii "s", [], ascii "i"⟩ :=
    ⟨rfl, _, ⟨0, 0, [1, 0, 0, 0, 116, 2, 1, 0, 0, 0, 115, 0, 0, 0, 0, 1, 0, 0, 0, 105], by decide⟩,
      (Option.some_get (by decide +kernel)).symm, by decide +kernel, by decide +kernel⟩
  funext (selectors_agree h).1

end OmniBinder
