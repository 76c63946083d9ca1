/-
Module: OmniBinder.Proofs.RecordRoundTrip
Purpose: The records of the control plane and of sessions arrive as they were sent.
Trusted boundary: none
Main exports: ServiceInfo.layout, records_transmitted
-/
import OmniBinder.Proofs.RecordLayout

namespace OmniBinder

open LittleEndian List Layout TopicSelectorFields

variable {α : Type}

/-! ### Layouts -/

def MethodInfo.layout (info : MethodInfo) : Layout :=
  .join [.fixed (encode 4 info.methodId.toNat), .text info.name, .text info.paramTypes,
    .text info.returnType, .fixed (encode 4 info.idlHash.toNat)]

def InterfaceInfo.layout (info : InterfaceInfo) : Layout :=
  .join [.fixed (encode 4 info.interfaceId.toNat), .text info.name,
    .counted (info.methods.map MethodInfo.layout)]

def ServiceInfo.layout (info : ServiceInfo) : Layout :=
  .join [.text info.name, .text info.host, .fixed (encode 2 info.port.toNat), .text info.hostId,
    .text info.instanceId, .fixed (encode 4 (UInt32.ofNat info.reqRingCapacity).toNat),
    .fixed (encode 4 (UInt32.ofNat info.respRingCapacity).toNat),
    .counted (info.interfaces.map InterfaceInfo.layout)]

def RuntimeInfo.layout (info : RuntimeInfo) : Layout :=
  .join [.fixed (encode 4 info.pid.toNat), .text info.processName, .text info.role,
    .fixed (encode 4 info.logLevel.toNat), .fixed (encode 4 info.diagCapabilities.toNat),
    .counted (info.services.map Layout.text), .fixed (encode 4 info.sessionVersion.toNat),
    .text info.runtimeId, .fixed (encode 4 info.incarnationId.toNat),
    .fixed (encode 4 info.heartbeatIntervalMs.toNat),
    .fixed (encode 4 info.requestedTimeoutMs.toNat), .text info.hostId]

def SessionHello.layout (hello : SessionHello) : Layout :=
  .join [.fixed (encode 4 hello.version.toNat), .text hello.runtimeId,
    .fixed (encode 4 hello.incarnationId.toNat), .fixed (encode 4 hello.heartbeatIntervalMs.toNat),
    .fixed (encode 4 hello.requestedTimeoutMs.toNat), .fixed (encode 4 hello.capabilities.toNat),
    .text hello.hostId, .text hello.processName, .fixed (encode 4 hello.pid.toNat)]

def SessionHelloAck.layout (ack : SessionHelloAck) : Layout :=
  .join [.fixed (encode 4 ack.version.toNat), .fixed (encode 4 ack.status.toNat),
    .fixed (encode 4 ack.acceptedIntervalMs.toNat), .fixed (encode 4 ack.effectiveTimeoutMs.toNat),
    .fixed (encode 4 ack.peerIncarnationId.toNat)]

/-- The fields that the mode carries. -/
def TopicSelectorFields.layout (selector : TopicSelectorFields) : Layout :=
  .join (.fixed [selector.mode] ::
    ((if selector.mode ≥ topicSubModeService then [.text selector.publisherService] else []) ++
      if selector.mode = topicSubModeInstance then [.text selector.hostId, .text selector.instanceId]
      else []))

/-- The selector as it is read back: the fields that the mode does not carry are empty. -/
def TopicSelectorFields.carried (selector : TopicSelectorFields) : TopicSelectorFields :=
  ⟨selector.mode, if selector.mode ≥ topicSubModeService then selector.publisherService else [],
    if selector.mode = topicSubModeInstance then selector.hostId else [],
    if selector.mode = topicSubModeInstance then selector.instanceId else []⟩

/-! ### Sizes and counts -/

theorem length_layout_text (content : Bytes) : (text content).wire.length = stringSize content := by
  simp [text, stringSize]

theorem MethodInfo.length_layout (info : MethodInfo) : info.layout.wire.length = info.wireSize := by
  simp [layout, wireSize, join, fixed, length_layout_text]

theorem InterfaceInfo.length_layout (info : InterfaceInfo) :
    info.layout.wire.length = info.wireSize := by
  simp [layout, wireSize, join, fixed, counted, length_layout_text,
    length_join_map MethodInfo.length_layout]

theorem ServiceInfo.length_layout (info : ServiceInfo) : info.layout.wire.length = info.wireSize := by
  simp [layout, wireSize, join, fixed, counted, length_layout_text,
    length_join_map InterfaceInfo.length_layout]

theorem InterfaceInfo.Countable.counts {info : InterfaceInfo} (h : info.Countable) :
    ∀ count ∈ info.layout.counts, count ≤ 65535 := by
  have hmethods : ∀ count ∈ (join (info.methods.map MethodInfo.layout)).counts, count ≤ 65535 :=
    counts_join_map fun _ _ => nofun
  simpa [layout, join, fixed, text, counted] using ⟨h, hmethods⟩

theorem ServiceInfo.Countable.counts {info : ServiceInfo} (h : info.Countable) :
    ∀ count ∈ info.layout.counts, count ≤ 65535 := by
  have hinterfaces : ∀ count ∈ (join (info.interfaces.map InterfaceInfo.layout)).counts,
      count ≤ 65535 := counts_join_map fun interface hmem => (h.2 interface hmem).counts
  simpa [layout, join, fixed, text, counted] using ⟨h.1, hinterfaces⟩

/-! ### The serializers -/

theorem emits_serializeMethodInfo (info : MethodInfo) :
    Emits (serializeMethodInfo .succeeds info) info.layout :=
  .cons (emits_writeUint32 _) <| .cons (emits_writeString _) <| .cons (emits_writeString _) <|
    .cons (emits_writeString _) <| .single (emits_writeUint32 _)

theorem emits_serializeInterfaceInfo (info : InterfaceInfo) :
    Emits (serializeInterfaceInfo .succeeds info) info.layout :=
  .cons (emits_writeUint32 _) <| .cons (emits_writeString _) <|
    .single (.counted emits_serializeMethodInfo _)

theorem emits_serializeServiceInfo (info : ServiceInfo) :
    Emits (serializeServiceInfo .succeeds info) info.layout :=
  .cons (emits_writeString _) <| .cons (emits_writeString _) <| .cons (emits_writeUint16 _) <|
    .cons (emits_writeString _) <| .cons (emits_writeString _) <| .cons (emits_writeUint32 _) <|
    .cons (emits_writeUint32 _) <| .single (.counted emits_serializeInterfaceInfo _)

theorem emits_serializeRuntimeInfo (info : RuntimeInfo) :
    Emits (serializeRuntimeInfo .succeeds info) info.layout :=
  .cons (emits_writeUint32 _) <| .cons (emits_writeString _) <| .cons (emits_writeString _) <|
    .cons (emits_writeUint32 _) <| .cons (emits_writeUint32 _) <|
    .cons (.counted emits_writeString _) <| .cons (emits_writeUint32 _) <|
    .cons (emits_writeString _) <| .cons (emits_writeUint32 _) <| .cons (emits_writeUint32 _) <|
    .cons (emits_writeUint32 _) <| .single (emits_writeString _)

theorem emits_serializeSessionHello (hello : SessionHello) :
    Emits (serializeSessionHello .succeeds hello) hello.layout :=
  .cons (emits_writeUint32 _) <| .cons (emits_writeString _) <| .cons (emits_writeUint32 _) <|
    .cons (emits_writeUint32 _) <| .cons (emits_writeUint32 _) <| .cons (emits_writeUint32 _) <|
    .cons (emits_writeString _) <| .cons (emits_writeString _) <| .single (emits_writeUint32 _)

theorem emits_serializeSessionHelloAck (ack : SessionHelloAck) :
    Emits (serializeSessionHelloAck .succeeds ack) ack.layout :=
  .cons (emits_writeUint32 ack.version) <| .cons (emits_writeUint32 ack.status) <|
    .cons (emits_writeUint32 ack.acceptedIntervalMs) <|
    .cons (emits_writeUint32 ack.effectiveTimeoutMs) <|
    .single (emits_writeUint32 ack.peerIncarnationId)

theorem emits_writeTopicSubscriptionSelector {selector : TopicSelectorFields}
    (hmode : selector.mode ≤ topicSubModeInstance) :
    Emits (writeTopicSubscriptionSelector .succeeds selector) selector.layout := by
  have hwrite : writeTopicSubscriptionSelector .succeeds selector =
      writeAll ((·.writeUint8 .succeeds selector.mode) ::
        ((if selector.mode ≥ topicSubModeService then
            [(·.writeString .succeeds selector.publisherService)] else []) ++
          if selector.mode = topicSubModeInstance then
            [(·.writeString .succeeds selector.hostId),
              (·.writeString .succeeds selector.instanceId)]
          else [])) := by
    funext buf
    rw [writeTopicSubscriptionSelector, if_neg (UInt8.not_lt.mpr hmode)]
  rw [hwrite, layout]
  refine .cons (emits_writeUint8 _) ?_
  split_ifs
  · exact .cons (emits_writeString _) <| .cons (emits_writeString _) <|
      .single (emits_writeString _)
  · exact .single (emits_writeString _)
  · exact .cons (emits_writeString _) <| .single (emits_writeString _)
  · exact .nil

/-! ### The deserializers -/

theorem reads_deserializeMethodInfo {info : MethodInfo} :
    ¬ info.layout.Oversized → Reads deserializeMethodInfo info.layout.wire info :=
  .cons (fun _ => reads_uint32 _) <| .cons reads_textField <| .cons reads_textField <|
    .cons reads_textField <| .cons (fun _ => reads_uint32 _) fun _ => .pure _

theorem reads_deserializeInterfaceInfo {info : InterfaceInfo} :
    ¬ info.layout.Oversized → Reads deserializeInterfaceInfo info.layout.wire info :=
  .cons (fun _ => reads_uint32 _) <| .cons reads_textField <|
    reads_counted (fun _ => reads_deserializeMethodInfo) fun _ => .pure _

theorem reads_deserializeServiceInfo {info : ServiceInfo} (h : ¬ info.layout.Oversized)
    (hreq : info.reqRingCapacity < 2 ^ 32) (hresp : info.respRingCapacity < 2 ^ 32) :
    Reads deserializeServiceInfo info.layout.wire info := by
  have hsame : (⟨info.name, info.host, info.port, info.hostId, info.instanceId,
      (UInt32.ofNat info.reqRingCapacity).toNat, (UInt32.ofNat info.respRingCapacity).toNat,
      info.interfaces⟩ : ServiceInfo) = info := by
    rw [UInt32.toNat_ofNat', UInt32.toNat_ofNat', Nat.mod_eq_of_lt hreq, Nat.mod_eq_of_lt hresp]
  have hread : ¬ info.layout.Oversized → Reads deserializeServiceInfo info.layout.wire ⟨info.name,
      info.host, info.port, info.hostId, info.instanceId, (UInt32.ofNat info.reqRingCapacity).toNat,
      (UInt32.ofNat info.respRingCapacity).toNat, info.interfaces⟩ :=
    .cons reads_textField <| .cons reads_textField <| .cons (fun _ => reads_uint16 _) <|
      .cons reads_textField <| .cons reads_textField <| .cons (fun _ => reads_uint32 _) <|
      .cons (fun _ => reads_uint32 _) <|
      reads_counted (fun _ => reads_deserializeInterfaceInfo) fun _ => .pure _
  rw [hsame] at hread
  exact hread h

theorem reads_deserializeRuntimeInfo {info : RuntimeInfo} :
    ¬ info.layout.Oversized → Reads deserializeRuntimeInfo info.layout.wire info :=
  .cons (fun _ => reads_uint32 _) <| .cons reads_textField <| .cons reads_textField <|
    .cons (fun _ => reads_uint32 _) <| .cons (fun _ => reads_uint32 _) <|
    reads_counted (fun _ => reads_textField) <| .cons (fun _ => reads_uint32 _) <|
    .cons reads_textField <| .cons (fun _ => reads_uint32 _) <| .cons (fun _ => reads_uint32 _) <|
    .cons (fun _ => reads_uint32 _) <| .cons reads_textField fun _ => .pure _

theorem reads_deserializeSessionHello {hello : SessionHello} :
    ¬ hello.layout.Oversized → Reads deserializeSessionHello hello.layout.wire hello :=
  .cons (fun _ => reads_uint32 _) <| .cons reads_textField <| .cons (fun _ => reads_uint32 _) <|
    .cons (fun _ => reads_uint32 _) <| .cons (fun _ => reads_uint32 _) <|
    .cons (fun _ => reads_uint32 _) <| .cons reads_textField <| .cons reads_textField <|
    .cons (fun _ => reads_uint32 _) fun _ => .pure _

theorem reads_deserializeSessionHelloAck (ack : SessionHelloAck) :
    Reads deserializeSessionHelloAck ack.layout.wire ack :=
  .bind (reads_uint32 _) <| .bind (reads_uint32 _) <| .bind (reads_uint32 _) <|
    .bind (reads_uint32 _) <| .bind (reads_uint32 _) <| .pure _

theorem reads_readTopicSubscriptionSelector {selector : TopicSelectorFields}
    (hmode : selector.mode ≤ topicSubModeInstance) (h : ¬ selector.layout.Oversized) :
    Reads readTopicSubscriptionSelector selector.layout.wire selector.carried := by
  unfold layout at h ⊢
  unfold carried
  refine .bind (reads_uint8 _) ?_
  rw [if_neg (UInt8.not_lt.mpr hmode)]
  by_cases hservice : selector.mode ≥ topicSubModeService
  · by_cases hinstance : selector.mode = topicSubModeInstance
    · simp only [if_pos hservice, if_pos hinstance, cons_append, nil_append,
        oversized_join_cons, oversized_text, oversized_join_nil, not_or] at h ⊢
      exact .bind (reads_text h.2.1) <| .bind (reads_text h.2.2.1) <|
        .bind (reads_text h.2.2.2.1) <| .pure _
    · simp only [if_pos hservice, if_neg hinstance, cons_append, nil_append,
        oversized_join_cons, oversized_text, oversized_join_nil, not_or] at h ⊢
      exact .bind (reads_text h.2.1) <| .pure _
  · by_cases hinstance : selector.mode = topicSubModeInstance
    · rw [hinstance] at hservice
      exact absurd (by decide) hservice
    · simp only [if_neg hservice, if_neg hinstance, append_nil]
      exact .pure _

/-! ### Both buffer types -/

/-- The result, the output object and the bytes left behind are those of the view at the unread bytes. -/
def Decodes (view : View α) (unread : Bytes) (output : α) (result : Bool × α) (left : Bytes) : Prop :=
  match view unread with
  | none => result = (false, output)
  | some (value, rest) => result = (true, value) ∧ left = rest

section
variable {reader : Positional α} {view : View α}

theorem Buffer.decodes (h : Agrees reader view) (b : Buffer) (output : α) :
    Decodes view b.unread output (b.deserialize reader output).1
      (b.deserialize reader output).2.unread := by
  have hread := h b.data b.writePos b.readPos b.writePos_le b.readPos_le
  change Decodes view (window b.data b.writePos b.readPos) _ _ _
  unfold Decodes
  cases hview : view (window b.data b.writePos b.readPos) with
  | none =>
    rw [hview] at hread
    simp only [Buffer.deserialize, hread]
    rfl
  | some result =>
    obtain ⟨value, rest⟩ := result
    rw [hview] at hread
    obtain ⟨after, hpair, hafter, rfl⟩ := hread
    simp only [Buffer.deserialize, hpair, Buffer.trySetReadPosition, dif_pos hafter]
    exact ⟨rfl, rfl⟩

theorem BufferView.decodes (h : Agrees reader view) (v : BufferView) (output : α) :
    Decodes view v.unread output (v.deserialize reader output).1
      (v.deserialize reader output).2.unread := by
  have hread := h v.data v.data.length v.readPos le_rfl v.readPos_le
  simp only [window, take_length] at hread
  unfold Decodes BufferView.unread
  cases hview : view (v.data.drop v.readPos) with
  | none =>
    rw [hview] at hread
    simp only [BufferView.deserialize, hread]
    rfl
  | some result =>
    obtain ⟨value, rest⟩ := result
    rw [hview] at hread
    obtain ⟨after, hpair, hafter, rfl⟩ := hread
    simp only [BufferView.deserialize, hpair, dif_pos hafter]
    exact ⟨rfl, trivial⟩

end

/-! ### Records -/

/-- Serializing a record into a healthy buffer fails exactly on an oversized one, provided that memory
    for the encoded record can be had, and otherwise appends bytes from which both buffer types get the
    record back and behind which they stop. -/
structure Transmits (write : Write) (reader : Positional α) (l : Layout) (record : α) : Prop where
  fails_iff : ∀ buf : Buffer, buf.writeFailed = false →
    (¬ l.Oversized → buf.writePos + l.wire.length ≤ sizeMax / 2) →
      ((write buf).1 = false ↔ l.Oversized)
  appends : ¬ l.Oversized → ∀ buf : Buffer, buf.writeFailed = false →
    buf.writePos + l.wire.length ≤ sizeMax / 2 →
      ∃ buf', write buf = (true, buf') ∧ buf'.bytes = buf.bytes ++ l.wire
  throughBuffer : ¬ l.Oversized → ∀ (trailing : Bytes) (output : α) (b : Buffer),
    b.unread = l.wire ++ trailing →
      (b.deserialize reader output).1 = (true, record) ∧
        (b.deserialize reader output).2.unread = trailing
  throughView : ¬ l.Oversized → ∀ (trailing : Bytes) (output : α) (v : BufferView),
    v.unread = l.wire ++ trailing →
      (v.deserialize reader output).1 = (true, record) ∧
        (v.deserialize reader output).2.unread = trailing

/-- Less than the bytes of a record is refused, and the output object is not touched. -/
structure RejectsPrefixes (reader : Positional α) (l : Layout) : Prop where
  throughBuffer : ¬ l.Oversized → ∀ pre, pre <+: l.wire → pre ≠ l.wire →
    ∀ (output : α) (b : Buffer), b.unread = pre → (b.deserialize reader output).1 = (false, output)
  throughView : ¬ l.Oversized → ∀ pre, pre <+: l.wire → pre ≠ l.wire →
    ∀ (output : α) (v : BufferView), v.unread = pre →
      (v.deserialize reader output).1 = (false, output)

section
variable {reader : Positional α} {view : View α} {l : Layout} {record : α}

theorem Transmits.of_reads {write : Write} (hwrite : Emits write l) (hmirrors : Mirrors reader view)
    (hread : ¬ l.Oversized → Reads view l.wire record) : Transmits write reader l record where
  fails_iff buf hclear hroom := by
    refine ⟨fun hfailed => ?_, fun hover => hwrite.refuses hover buf⟩
    by_contra hfits
    obtain ⟨buf', hwrote, -⟩ := hwrite.appends hfits buf hclear (hroom hfits)
    rw [hwrote] at hfailed
    cases hfailed
  appends hfits buf hclear hroom := by
    obtain ⟨buf', hwrote, -, hbytes, -⟩ := hwrite.appends hfits buf hclear hroom
    exact ⟨buf', hwrote, hbytes⟩
  throughBuffer hfits trailing output b hunread := by
    have hresult := Buffer.decodes hmirrors.agrees b output
    rwa [Decodes, hunread, hread hfits trailing] at hresult
  throughView hfits trailing output v hunread := by
    have hresult := BufferView.decodes hmirrors.agrees v output
    rwa [Decodes, hunread, hread hfits trailing] at hresult

theorem RejectsPrefixes.of_reads (hmirrors : Mirrors reader view)
    (hread : ¬ l.Oversized → Reads view l.wire record) : RejectsPrefixes reader l := by
  have hnone : ¬ l.Oversized → ∀ pre, pre <+: l.wire → pre ≠ l.wire → view pre = none := by
    intro hfits pre hpre hne
    have hwhole := hread hfits []
    rw [append_nil] at hwhole
    exact hmirrors.extensible.prefix_none hwhole hpre hne
  constructor
  · intro hfits pre hpre hne output b hunread
    have hresult := Buffer.decodes hmirrors.agrees b output
    rwa [Decodes, hunread, hnone hfits pre hpre hne] at hresult
  · intro hfits pre hpre hne output v hunread
    have hresult := BufferView.decodes hmirrors.agrees v output
    rwa [Decodes, hunread, hnone hfits pre hpre hne] at hresult

end

/-- Every record that goes over the control plane or opens a session arrives as it was sent. -/
theorem records_transmitted :
    (∀ info : ServiceInfo, info.reqRingCapacity < 2 ^ 32 → info.respRingCapacity < 2 ^ 32 →
      Transmits (serializeServiceInfo .succeeds info) Template.deserializeServiceInfo
          info.layout info ∧
        RejectsPrefixes (Template.deserializeServiceInfo (m := Positional)) info.layout) ∧
    (∀ info : RuntimeInfo,
      Transmits (serializeRuntimeInfo .succeeds info) Template.deserializeRuntimeInfo
          info.layout info ∧
        RejectsPrefixes (Template.deserializeRuntimeInfo (m := Positional)) info.layout) ∧
    (∀ hello : SessionHello,
      Transmits (serializeSessionHello .succeeds hello) Template.deserializeSessionHello
          hello.layout hello ∧
        RejectsPrefixes (Template.deserializeSessionHello (m := Positional)) hello.layout) ∧
    (∀ ack : SessionHelloAck,
      Transmits (serializeSessionHelloAck .succeeds ack) Template.deserializeSessionHelloAck
          ack.layout ack ∧
        RejectsPrefixes (Template.deserializeSessionHelloAck (m := Positional)) ack.layout) ∧
    ∀ selector : TopicSelectorFields, selector.mode ≤ topicSubModeInstance →
      Transmits (writeTopicSubscriptionSelector .succeeds selector)
        Template.readTopicSubscriptionSelector selector.layout selector.carried := by
  refine ⟨fun info hreq hresp => ?_, fun info => ?_, fun hello => ?_, fun ack => ?_,
    fun selector hmode => ?_⟩
  · have hread : ¬ info.layout.Oversized → Reads deserializeServiceInfo info.layout.wire info :=
      fun hfits => reads_deserializeServiceInfo hfits hreq hresp
    exact ⟨.of_reads (emits_serializeServiceInfo info) mirrors_deserializeServiceInfo hread,
      .of_reads mirrors_deserializeServiceInfo hread⟩
  · exact ⟨.of_reads (emits_serializeRuntimeInfo info) mirrors_deserializeRuntimeInfo
        reads_deserializeRuntimeInfo,
      .of_reads mirrors_deserializeRuntimeInfo reads_deserializeRuntimeInfo⟩
  · exact ⟨.of_reads (emits_serializeSessionHello hello) mirrors_deserializeSessionHello
        reads_deserializeSessionHello,
      .of_reads mirrors_deserializeSessionHello reads_deserializeSessionHello⟩
  · have hread : ¬ ack.layout.Oversized → Reads deserializeSessionHelloAck ack.layout.wire ack :=
      fun _ => reads_deserializeSessionHelloAck ack
    exact ⟨.of_reads (emits_serializeSessionHelloAck ack) mirrors_deserializeSessionHelloAck hread,
      .of_reads mirrors_deserializeSessionHelloAck hread⟩
  · exact .of_reads (emits_writeTopicSubscriptionSelector hmode) mirrors_readTopicSubscriptionSelector
      (reads_readTopicSubscriptionSelector hmode)

end OmniBinder
