/-
Module: OmniBinder.Proofs.ListReplies
Purpose: Which replies of the ServiceManager can be sent: a reply is lost when its payload cannot be
  written or leaves no room for the header of a frame. Lists arrive as they were sent, and a reply that is
  refused leaves the caller's list alone. The two sides of the topic list count its limits differently.
Trusted boundary: none
Main exports: published_topics_reply_exact, sendable_of_size, list_replies_decoded
-/
import OmniBinder.Proofs.FrameStream
import OmniBinder.Proofs.RecordRoundTrip
import OmniBinder.Proofs.SmNesting
import OmniBinder.Runtime.RpcRuntime

namespace OmniBinder

open LittleEndian List View Layout Buffer ServiceInfo

variable {found : Bool} {topics : List Bytes} {topic view rest : Bytes} {counted : Nat}

/-! ### What a read has taken -/

theorem tryReadUint32_some {value : UInt32} (h : tryReadUint32 view = some (value, rest)) :
    view = encode 4 value.toNat ++ rest := by
  rw [tryReadUint32_eq, readFixedWidth] at h
  split_ifs at h with hlong
  cases h
  have hfront := encode_decode (view.take 4)
  rw [length_take_of_le hlong] at hfront
  rw [encode_uint32, hfront, take_append_drop]

theorem tryReadBool_cons (byte : UInt8) (rest : Bytes) :
    tryReadBool (byte :: rest) = some (byte != 0, rest) := by
  rw [tryReadBool_eq, readFixedWidth]
  simp [decode]

theorem tryReadString_some (h : tryReadString view = some (topic, rest)) :
    view = (text topic).wire ++ rest := by
  rw [tryReadString_eq, readWithPrefix] at h
  split at h
  · cases h
  next len middle hlen =>
  split_ifs at h with hroom
  cases h
  rw [tryReadUint32_some hlen, text, length_take_of_le hroom, append_assoc,
    take_append_drop]

/-! ### The two sides -/

/-- The limits that both sides put on a reply. -/
def TopicsReplyFits (found : Bool) (topics : List Bytes) : Prop :=
  (found = false → topics = []) ∧ topics.length ≤ maxPublishedTopics ∧ publishedTopicsFit topics 0

def topicsReplyLayout (found : Bool) (topics : List Bytes) : Layout :=
  .join (.fixed [if found then 1 else 0] ::
    if found then .fixed (encode 4 (UInt32.ofNat topics.length).toNat) :: topics.map .text else [])

theorem topic_length_of_fit (h : publishedTopicsFit topics counted = true) (hmem : topic ∈ topics) :
    topic.length ≤ maxTopicNameLength := by
  induction topics generalizing counted with
  | nil => cases hmem
  | cons first topics ih =>
    rw [publishedTopicsFit] at h
    split_ifs at h with hbad
    rcases mem_cons.mp hmem with rfl | hmem
    · exact Nat.not_lt.mp fun hlong => hbad (.inr (.inl hlong))
    · exact ih h hmem

theorem TopicsReplyFits.not_oversized (h : TopicsReplyFits found topics) :
    ¬ (topicsReplyLayout found topics).Oversized := by
  cases found with
  | false => simp [topicsReplyLayout]
  | true =>
    rw [topicsReplyLayout, if_pos rfl, if_pos rfl, oversized_join_cons, oversized_join_cons,
      oversized_fixed, oversized_fixed, false_or, false_or, oversized_join]
    rintro ⟨l, hl, hlong⟩
    obtain ⟨topic, hmem, rfl⟩ := List.mem_map.mp hl
    have hshort := topic_length_of_fit h.2.2 hmem
    rw [oversized_text] at hlong
    exact absurd hlong (Nat.not_lt.mpr (hshort.trans (by decide)))

/-- With memory to spare, a reply within the limits is encoded on the side and copied. -/
theorem serializePublishedTopicsReply_appends (h : TopicsReplyFits found topics) {buf : Buffer}
    (hclear : buf.writeFailed = false)
    (hroom : buf.writePos + (topicsReplyLayout found topics).wire.length ≤ sizeMax / 2) :
    ∃ buf', serializePublishedTopicsReply .succeeds found topics buf = (true, buf') ∧
      buf'.writeFailed = false ∧ buf'.bytes = buf.bytes ++ (topicsReplyLayout found topics).wire := by
  have hemits : Emits (writeAll ((·.writeBool .succeeds found) ::
      if found then (·.writeUint32 .succeeds (UInt32.ofNat topics.length)) ::
        topics.map fun topic => (·.writeString .succeeds topic) else []))
      (topicsReplyLayout found topics) := by
    refine Emits.cons (emits_writeFixed _) ?_
    cases found with
    | false => exact Emits.nil
    | true => exact Emits.cons (emits_writeUint32 _) (Emits.map emits_writeString topics)
  obtain ⟨encoded, hwrote, -, hbytes, -⟩ := hemits.appends h.not_oversized init rfl (by
    rw [show init.writePos = 0 from rfl]
    omega)
  rw [show init.bytes = [] from rfl, nil_append] at hbytes
  obtain ⟨hempty, hlength, hfit⟩ := h
  have hmany : ¬ (topics.length > maxPublishedTopics ∨ (!found ∧ !topics.isEmpty)) := by
    cases found with
    | false => simp [hempty rfl]
    | true => simpa using hlength
  obtain ⟨buf', hcopied, hready, hcopy, -⟩ := (puts_writeRaw _ encoded.bytes).appends trivial buf hclear (by
    rw [hbytes]
    exact hroom)
  refine ⟨buf', ?_, hready, by rw [hcopy, ← hbytes]⟩
  rw [serializePublishedTopicsReply, if_neg hmany, if_neg (by simpa using hfit)]
  simp only [hwrote]
  exact hcopied

theorem TopicsReplyFits.of_serialize {buf : Buffer}
    (h : (serializePublishedTopicsReply .succeeds found topics buf).1 = true) :
    TopicsReplyFits found topics := by
  rw [serializePublishedTopicsReply] at h
  by_cases hmany : topics.length > maxPublishedTopics ∨ (!found ∧ !topics.isEmpty)
  · rw [if_pos hmany] at h
    cases h
  by_cases hfit : publishedTopicsFit topics 0 = true
  · rw [not_or] at hmany
    refine ⟨fun hfound => ?_, Nat.not_lt.mp hmany.1, hfit⟩
    simpa [hfound] using hmany.2
  · rw [if_neg hmany, if_pos (by simpa using hfit)] at h
    cases h

theorem reads_publishedTopics (h : publishedTopicsFit topics counted = true) :
    Reads (readPublishedTopics topics.length counted) (join (topics.map .text)).wire topics := by
  induction topics generalizing counted with
  | nil => exact .pure _
  | cons topic topics ih =>
    have hshort := topic_length_of_fit h (mem_cons_self ..)
    rw [publishedTopicsFit] at h
    split_ifs at h with hbad
    refine .bind (reads_text (Nat.not_lt.mpr (hshort.trans (by decide)))) ?_
    rw [if_neg hbad, ← append_nil (join (topics.map .text)).wire]
    exact .bind (ih h) (.pure _)

/-- Topics that are read are within the limits, and are those on the wire. -/
theorem readPublishedTopics_some {count : Nat}
    (h : readPublishedTopics count counted view = some (topics, rest)) :
    topics.length = count ∧ publishedTopicsFit topics counted = true ∧
      view = (join (topics.map .text)).wire ++ rest := by
  induction count generalizing counted view topics with
  | zero =>
    obtain ⟨rfl, rfl⟩ := pure_eq_some.mp h
    exact ⟨rfl, rfl, rfl⟩
  | succ count ih =>
    obtain ⟨topic, middle, htopic, h⟩ := bind_eq_some.mp h
    split_ifs at h with hbad
    · cases h
    obtain ⟨others, last, hothers, h⟩ := bind_eq_some.mp h
    obtain ⟨rfl, rfl⟩ := pure_eq_some.mp h
    obtain ⟨hlength, hfit, hmiddle⟩ := ih hothers
    refine ⟨congrArg (· + 1) hlength, ?_, ?_⟩
    · rw [publishedTopicsFit, if_neg hbad, hfit]
    · rw [tryReadString_some htopic, hmiddle, ← append_assoc]
      rfl

/-- Four bytes of length for each topic, and the topics themselves. -/
theorem sum_stringSize (topics : List Bytes) :
    (topics.map stringSize).sum = 4 * topics.length + (topics.map List.length).sum := by
  induction topics with
  | nil => rfl
  | cons topic topics ih =>
    simp only [map_cons, sum_cons, length_cons, ih, stringSize]
    omega

theorem length_join_texts (topics : List Bytes) :
    (join (topics.map .text)).wire.length = (topics.map stringSize).sum :=
  length_join_map (fun topic => by simp [text, stringSize]) topics

theorem length_topicsReplyLayout (found : Bool) (topics : List Bytes) :
    (topicsReplyLayout found topics).wire.length =
      if found then 5 + (topics.map stringSize).sum else 1 := by
  cases found with
  | false => rfl
  | true =>
    simp only [topicsReplyLayout, if_true, join, fixed, length_append,
      length_join_texts, length_encode, length_singleton]
    omega

/-- What is written is read back, with nothing left. -/
theorem deserializePublishedTopicsReply_layout (h : TopicsReplyFits found topics) :
    deserializePublishedTopicsReply (topicsReplyLayout found topics).wire =
      some ((found, topics), []) := by
  obtain ⟨hempty, hlength, hfit⟩ := h
  have hfound : Reads tryReadBool [if found then 1 else 0] found := by
    intro rest
    rw [singleton_append, tryReadBool_cons]
    cases found with
    | false => rfl
    | true => rfl
  refine (bind_of_eq_some (hfound _)).trans ?_
  cases found with
  | false =>
    rw [hempty rfl]
    rfl
  | true =>
    have hnumber : (UInt32.ofNat topics.length).toNat = topics.length := by
      rw [UInt32.toNat_ofNat']
      exact Nat.mod_eq_of_lt (hlength.trans_lt (by decide))
    set texts := (join (topics.map .text)).wire with htexts
    have hvalid : ¬ ((UInt32.ofNat topics.length).toNat > maxPublishedTopics ∨
        (UInt32.ofNat topics.length).toNat > texts.length / 4) := by
      rw [hnumber, htexts, length_join_texts, sum_stringSize]
      omega
    have htopics : readFoundTopics (encode 4 (UInt32.ofNat topics.length).toNat ++ texts) =
        some (topics, []) := by
      refine (bind_of_eq_some (reads_uint32 _ texts)).trans ?_
      refine (bind_of_eq_some (rfl : remaining texts = some (texts.length, texts))).trans ?_
      rw [if_neg hvalid, hnumber, ← append_nil texts]
      exact reads_publishedTopics hfit []
    exact bind_of_eq_some htopics

/-! ### Exactness -/

/-- The reply with the only byte that says found. -/
def canonicalFound : Bytes → Bytes
  | [] => []
  | byte :: rest => (if byte = 0 then 0 else 1) :: rest

/-- A reply that is read is within the limits, and is the one that is written for what was read. -/
theorem deserializePublishedTopicsReply_some
    (h : deserializePublishedTopicsReply view = some ((found, topics), rest)) :
    TopicsReplyFits found topics ∧ canonicalFound view = (topicsReplyLayout found topics).wire := by
  obtain ⟨said, behind, hsaid, h⟩ := bind_eq_some.mp h
  obtain ⟨decoded, last, htopics, h⟩ := bind_eq_some.mp h
  obtain ⟨available, last', hlast, h⟩ := bind_eq_some.mp h
  cases hlast
  split_ifs at h with hleft
  · cases h
  obtain ⟨hresult, rfl⟩ := pure_eq_some.mp h
  cases hresult
  have hnothing : last = [] := length_eq_zero_iff.mp (not_not.mp hleft)
  cases view with
  | nil => cases hsaid
  | cons byte view =>
    rw [tryReadBool_cons] at hsaid
    cases hsaid
    by_cases hzero : byte = 0
    · subst hzero
      obtain ⟨rfl, rfl⟩ := pure_eq_some.mp htopics
      rw [hnothing]
      exact ⟨⟨fun _ => rfl, Nat.zero_le _, rfl⟩, rfl⟩
    · have hfound : (byte != 0) = true := bne_iff_ne.mpr hzero
      rw [hfound, if_pos rfl] at htopics
      obtain ⟨count, texts, hcount, htopics⟩ := bind_eq_some.mp htopics
      obtain ⟨room, texts', hroom, htopics⟩ := bind_eq_some.mp htopics
      cases hroom
      split_ifs at htopics with hmany
      · cases htopics
      obtain ⟨hlength, hfit, htexts⟩ := readPublishedTopics_some htopics
      rw [not_or] at hmany
      rw [hfound]
      refine ⟨⟨nofun, hlength ▸ Nat.not_lt.mp hmany.1, hfit⟩, ?_⟩
      rw [canonicalFound, if_neg hzero, tryReadUint32_some hcount, htexts, hnothing, append_nil,
        topicsReplyLayout, hlength, UInt32.ofNat_toNat]
      rfl

/-- For every reply the serializer succeeds, given memory, just if the reply is the result of some
    bytes. What it writes is read back, what is read is written as it was but for the byte that says
    found, and bytes that are rejected leave the output as it was. -/
theorem published_topics_reply_exact : (∀ found topics (buf : Buffer), buf.writeFailed = false →
      buf.writePos + (topicsReplyLayout found topics).wire.length ≤ sizeMax / 2 →
      ((serializePublishedTopicsReply .succeeds found topics buf).1 = true ↔
        ∃ wire, ∀ output, deserializePublishedTopicsReplyInto wire output = (true, found, topics)) ∧
      ∀ buf', serializePublishedTopicsReply .succeeds found topics buf = (true, buf') →
        ∃ wire, buf'.bytes = buf.bytes ++ wire ∧
          ∀ output, deserializePublishedTopicsReplyInto wire output = (true, found, topics)) ∧
    ∀ wire output found topics,
      (deserializePublishedTopicsReplyInto wire output = (true, found, topics) →
        ∀ buf : Buffer, buf.writeFailed = false →
          buf.writePos + (topicsReplyLayout found topics).wire.length ≤ sizeMax / 2 →
          ∃ buf', serializePublishedTopicsReply .succeeds found topics buf = (true, buf') ∧
            buf'.bytes = buf.bytes ++ canonicalFound wire) ∧
      ((deserializePublishedTopicsReplyInto wire output).1 = false →
        (deserializePublishedTopicsReplyInto wire output).2 = output) := by
  have hread : ∀ {found topics}, TopicsReplyFits found topics → ∀ output,
      deserializePublishedTopicsReplyInto (topicsReplyLayout found topics).wire output =
        (true, found, topics) := by
    intro found topics hfits output
    rw [deserializePublishedTopicsReplyInto, deserializePublishedTopicsReply_layout hfits]
  have haccepted : ∀ {wire output found topics},
      deserializePublishedTopicsReplyInto wire output = (true, found, topics) →
        TopicsReplyFits found topics ∧ canonicalFound wire = (topicsReplyLayout found topics).wire := by
    intro wire output found topics h
    unfold deserializePublishedTopicsReplyInto at h
    split at h
    · next hsome =>
      cases h
      exact deserializePublishedTopicsReply_some hsome
    · cases h
  refine ⟨fun found topics buf hclear hroom => ⟨⟨fun h => ?_, fun ⟨wire, hwire⟩ => ?_⟩, fun buf' h => ?_⟩,
    fun wire output found topics => ⟨fun h buf hclear hroom => ?_, fun h => ?_⟩⟩
  · exact ⟨_, hread (.of_serialize h)⟩
  · obtain ⟨buf', hwrote, -⟩ :=
      serializePublishedTopicsReply_appends (haccepted (hwire (false, []))).1 hclear hroom
    rw [hwrote]
  · have hfits : TopicsReplyFits found topics := .of_serialize (by rw [h])
    obtain ⟨written, hwrote, -, hbytes⟩ := serializePublishedTopicsReply_appends hfits hclear hroom
    rw [h] at hwrote
    cases hwrote
    exact ⟨_, hbytes, hread hfits⟩
  · obtain ⟨hfits, hwire⟩ := haccepted h
    obtain ⟨buf', hwrote, -, hbytes⟩ := serializePublishedTopicsReply_appends hfits hclear hroom
    exact ⟨buf', hwrote, hwire ▸ hbytes⟩
  · unfold deserializePublishedTopicsReplyInto at h ⊢
    split at h
    · cases h
    · rfl

open Buffer

/-! ### Rows of runtimes -/

/-- The number of bytes of a row in a list of runtimes. -/
def RuntimeInfo.wireSize (info : RuntimeInfo) : Nat :=
  4 + (stringSize info.processName + (stringSize info.role + (4 + (4 +
    ((2 + (info.services.map stringSize).sum) + (4 + (stringSize info.runtimeId + (4 + (4 + (4 +
      stringSize info.hostId))))))))))

theorem RuntimeInfo.length_layout (info : RuntimeInfo) : info.layout.wire.length = info.wireSize := by
  simp [layout, wireSize, join, fixed, counted, length_layout_text,
    length_join_map length_layout_text, Nat.add_assoc]

theorem Buffer.writePos_setWritePosition_le (buf : Buffer) (pos : Nat) :
    (buf.setWritePosition .succeeds pos).writePos ≤ max buf.writePos pos := by
  unfold setWritePosition moveWritePos
  split_ifs
  · exact le_max_left _ _
  · exact (reserve_spec .succeeds buf pos).1.le.trans (le_max_left _ _)
  · exact le_max_right _ _
  · exact le_max_right _ _

variable {writes : List Write} {out : Outgoing}

namespace ServiceManager

/-! ### Replies that can be sent -/

/-- The message is made and fits a frame. -/
def Outgoing.Sendable (out : Outgoing) (sequence : UInt32) : Prop :=
  ∃ msg, out.message sequence = some msg ∧ (msg.serialize .succeeds Buffer.init).1 = true

/-- The room for a payload in a frame. -/
def payloadRoom : Nat := maxMessageSize - messageHeaderSize

theorem Outgoing.sendable_iff (out : Outgoing) (sequence : UInt32) :
    out.Sendable sequence ↔ ∃ buf, out.payload .succeeds = some buf ∧ buf.writePos ≤ payloadRoom := by
  constructor
  · rintro ⟨msg, hmade, haccepted⟩
    obtain ⟨buf, hpayload, rfl⟩ := Option.map_eq_some_iff.mp hmade
    exact ⟨buf, hpayload, (Message.serialize_accepts_iff _).mp haccepted⟩
  · rintro ⟨buf, hpayload, hsize⟩
    refine ⟨_, Option.map_eq_some_iff.mpr ⟨buf, hpayload, rfl⟩, ?_⟩
    exact (Message.serialize_accepts_iff _).mpr hsize

theorem unchecked_of_writeAll {buf buf' : Buffer} (h : writeAll writes buf = (true, buf')) :
    Outgoing.unchecked writes buf = buf' := by
  induction writes generalizing buf with
  | nil =>
    cases h
    rfl
  | cons write writes ih =>
    rw [writeAll_cons] at h
    change Outgoing.unchecked writes (write buf).2 = buf'
    rcases hwrote : write buf with ⟨_ | _, buf₁⟩
    · rw [hwrote] at h
      cases h
    · rw [hwrote] at h
      exact ih h

/-- A reply whose parts can all be written is sent when it leaves room for the header. -/
theorem sendable_iff_of_emits {checked : List Write} {front back : Layout}
    (hpayload : out.payload .succeeds = Outgoing.checkedAfter writes checked)
    (hfront : Emits (writeAll writes) front) (hback : Emits (writeAll checked) back)
    (hnone : front.counts = []) (hcounts : ∀ count ∈ back.counts, count ≤ 65535)
    (hmax : front.wire.length + back.wire.length ≤ uint32Max) (sequence : UInt32) :
    out.Sendable sequence ↔ front.wire.length + back.wire.length ≤ payloadRoom := by
  have hinit : init.writePos = 0 := rfl
  obtain ⟨buf, hwrote, hclear, hpos⟩ := hfront.fills (by simp [hnone]) (rfl : init.writeFailed = _)
    (by omega)
  obtain ⟨buf', hwrote', -, hpos'⟩ := hback.fills hcounts hclear (by omega)
  have hmade : out.payload .succeeds = some buf' := by
    rw [hpayload, Outgoing.checkedAfter, unchecked_of_writeAll hwrote, hwrote']
  have hsize : buf'.writePos = front.wire.length + back.wire.length := by omega
  rw [out.sendable_iff sequence, hmade]
  simp [hsize]

theorem sendable_of_emits {checked : List Write} {front back : Layout}
    (hpayload : out.payload .succeeds = Outgoing.checkedAfter writes checked)
    (hfront : Emits (writeAll writes) front) (hback : Emits (writeAll checked) back)
    (hnone : front.counts = []) (hcounts : ∀ count ∈ back.counts, count ≤ 65535)
    (hsize : front.wire.length + back.wire.length ≤ payloadRoom) (sequence : UInt32) :
    out.Sendable sequence :=
  (sendable_iff_of_emits hpayload hfront hback hnone hcounts (hsize.trans (by decide)) sequence).mpr hsize

theorem sendable_of_unchecked {front : Layout}
    (hpayload : out.payload .succeeds = some (Outgoing.unchecked writes init))
    (hfront : Emits (writeAll writes) front) (hnone : front.counts = [])
    (hsize : front.wire.length ≤ payloadRoom) (sequence : UInt32) : out.Sendable sequence :=
  sendable_of_emits hpayload hfront Emits.nil hnone nofun hsize sequence

/-! ### Measuring replies -/

namespace Outgoing

/-- The number of bytes of the payload of a reply, as far as its descriptions can be written. -/
def bodySize : Outgoing → Nat
  | registerReply _ => 4
  | boolReply _ _ => 1
  | controlHeartbeatAck _ => 4
  | lookupReply found => 1 + (found.toList.map ServiceInfo.wireSize).sum
  | listInstancesReply _ instances => 5 + (instances.map ServiceInfo.wireSize).sum
  | listServicesReply services => 4 + (services.map ServiceInfo.wireSize).sum
  | queryInterfacesReply found => 5 + ((found.getD []).map InterfaceInfo.wireSize).sum
  | queryPublishedTopicsReply _ topics => 5 + (topics.map stringSize).sum
  | subscribeTopicReply _ _ => 5
  | runtimeHelloReply _ => 20
  | runtimeListReply infos => 4 + (infos.map RuntimeInfo.wireSize).sum
  | _ => 0

/-- No count in the reply is too large for the wire. -/
def Countable : Outgoing → Prop
  | lookupReply found => ∀ info ∈ found, info.Countable
  | listInstancesReply _ instances => ∀ info ∈ instances, info.Countable
  | listServicesReply services => ∀ info ∈ services, info.Countable
  | queryInterfacesReply found => ∀ interfaces ∈ found, ∀ interface ∈ interfaces, interface.Countable
  | queryPublishedTopicsReply found topics =>
    (found = false → topics = []) ∧ topics.length ≤ maxPublishedTopics ∧ publishedTopicsFit topics 0
  | _ => True

end Outgoing

theorem emits_writeBool (value : Bool) :
    Emits (·.writeBool .succeeds value) (.fixed [if value then 1 else 0]) := emits_writeFixed _

/-- A service is found for a client exactly when its description fits a frame. -/
theorem sendable_lookupReply_iff {info : ServiceInfo} (hcount : info.Countable)
    (hmax : 1 + info.wireSize ≤ uint32Max) (sequence : UInt32) :
    (Outgoing.lookupReply (some info)).Sendable sequence ↔ 1 + info.wireSize ≤ payloadRoom := by
  have hlength : (join [info.layout]).wire.length = info.wireSize := by
    simp [join, info.length_layout]
  rw [← hlength] at hmax ⊢
  exact sendable_iff_of_emits rfl (Emits.single (emits_writeBool true))
    (Emits.single (emits_serializeServiceInfo info)) rfl
    (by simpa [join] using hcount.counts) hmax sequence

/-- Rows that cannot be written take no room in the end. -/
theorem writePos_runtimeEntries_le (infos : List RuntimeInfo) (entries : Buffer) (count : Nat) :
    (Outgoing.runtimeEntries .succeeds infos (entries, count)).1.writePos ≤
      entries.writePos + (infos.map RuntimeInfo.wireSize).sum := by
  induction infos generalizing entries count with
  | nil => exact le_rfl
  | cons info infos ih =>
    have hrow := (emits_serializeRuntimeInfo info).atMost entries
    rw [info.length_layout] at hrow
    rw [Outgoing.runtimeEntries, map_cons, sum_cons]
    generalize serializeRuntimeInfo .succeeds info entries = written at hrow ⊢
    obtain ⟨_ | _, buf⟩ := written
    · have hback := buf.writePos_setWritePosition_le entries.writePos
      have hrest := ih (buf.setWritePosition .succeeds entries.writePos) count
      simp only at hrow hrest ⊢
      omega
    · have hrest := ih buf (count + 1)
      simp only at hrow hrest ⊢
      omega

theorem sendable_runtimeListReply {infos : List RuntimeInfo}
    (hsize : 4 + (infos.map RuntimeInfo.wireSize).sum ≤ payloadRoom) (sequence : UInt32) :
    (Outgoing.runtimeListReply infos).Sendable sequence := by
  have hentries := writePos_runtimeEntries_le infos init 0
  rw [show init.writePos = 0 from rfl, Nat.zero_add] at hentries
  refine (Outgoing.sendable_iff _ sequence).mpr ⟨_, rfl, le_trans ?_ hsize⟩
  generalize Outgoing.runtimeEntries .succeeds infos (init, 0) = written at hentries ⊢
  obtain ⟨entries, count⟩ := written
  have hcount : _ ≤ _ + 4 := (emits_writeUint32 (UInt32.ofNat count)).atMost init
  have hraw := (puts_writeRaw .succeeds entries.bytes).atMost
    (init.writeUint32 .succeeds (UInt32.ofNat count)).2
  rw [length_bytes] at hraw
  simp only [Outgoing.unchecked, show init.writePos = 0 from rfl] at hcount hraw hentries ⊢
  split_ifs
  · simp only [foldl_cons, foldl_nil]
    omega
  · simp only [foldl_cons, foldl_nil]
    omega

theorem sendable_publishedTopicsReply {found : Bool} {topics : List Bytes}
    (hcount : TopicsReplyFits found topics) (hsize : 5 + (topics.map stringSize).sum ≤ payloadRoom)
    (sequence : UInt32) : (Outgoing.queryPublishedTopicsReply found topics).Sendable sequence := by
  have hlength : (topicsReplyLayout found topics).wire.length ≤ payloadRoom := by
    rw [length_topicsReplyLayout]
    split_ifs
    · exact hsize
    · decide
  obtain ⟨buf, hwrote, -, hbytes⟩ := serializePublishedTopicsReply_appends hcount
    (rfl : init.writeFailed = false) (((Nat.zero_add _).le.trans hlength).trans (by decide))
  refine (Outgoing.sendable_iff _ sequence).mpr ⟨buf, ?_, ?_⟩
  · rw [Outgoing.payload, Outgoing.checkedAfter, Outgoing.unchecked, foldl_nil]
    simp [writeAll, Message.thenWrite, hwrote]
  · rw [← length_bytes, hbytes]
    exact hlength

/-- A reply that is countable and not too long can be sent. -/
theorem sendable_of_size (out : Outgoing) (hreply : out.isReply = true) (hcount : out.Countable)
    (hsize : out.bodySize ≤ payloadRoom) (sequence : UInt32) : out.Sendable sequence := by
  have hinfos : ∀ {infos : List ServiceInfo}, (∀ info ∈ infos, info.Countable) →
      ∀ count ∈ (join (infos.map layout)).counts, count ≤ 65535 :=
    fun h => counts_join_map fun info hinfo => (h info hinfo).counts
  have hemits := Emits.map emits_serializeServiceInfo
  have hlength := length_join_map length_layout
  cases out with
  | registerReply handle =>
    exact sendable_of_unchecked rfl (Emits.single (emits_writeUint32 handle)) rfl hsize
      sequence
  | boolReply type ok =>
    exact sendable_of_unchecked rfl (Emits.single (emits_writeBool ok)) rfl hsize sequence
  | controlHeartbeatAck incarnationId =>
    exact sendable_of_unchecked rfl (Emits.single (emits_writeUint32 incarnationId)) rfl
      hsize sequence
  | lookupReply found =>
    refine sendable_of_emits rfl (Emits.single (emits_writeBool found.isSome))
      (hemits found.toList) rfl (hinfos fun info hinfo => ?_) ?_ sequence
    · exact hcount info (Option.mem_toList.mp hinfo)
    · rw [hlength]
      exact hsize
  | listInstancesReply found instances =>
    have hfront := Emits.cons (emits_writeBool found)
      (Emits.single (emits_writeUint32 (UInt32.ofNat instances.length)))
    cases found with
    | false =>
      exact sendable_of_emits rfl hfront Emits.nil rfl nofun
        ((Nat.le_add_right _ _).trans hsize) sequence
    | true =>
      refine sendable_of_emits rfl hfront (hemits instances) rfl (hinfos hcount) ?_ sequence
      rw [hlength]
      exact hsize
  | listServicesReply services =>
    refine sendable_of_emits rfl (Emits.single (emits_writeUint32 _)) (hemits services) rfl
      (hinfos hcount) ?_ sequence
    rw [hlength]
    exact hsize
  | queryInterfacesReply found =>
    cases found with
    | none =>
      exact sendable_of_unchecked rfl (Emits.single (emits_writeBool false)) rfl (by decide)
        sequence
    | some interfaces =>
      refine sendable_of_emits rfl (Emits.cons (emits_writeBool true)
          (Emits.single (emits_writeUint32 (UInt32.ofNat interfaces.length))))
        (Emits.map emits_serializeInterfaceInfo interfaces) rfl
        (counts_join_map fun interface hmem => (hcount interfaces rfl interface hmem).counts) ?_
        sequence
      rw [length_join_map InterfaceInfo.length_layout]
      exact hsize
  | queryPublishedTopicsReply found topics => exact sendable_publishedTopicsReply hcount hsize sequence
  | subscribeTopicReply success idlHash =>
    cases success with
    | false =>
      exact sendable_of_unchecked rfl (Emits.single (emits_writeBool false)) rfl (by decide)
        sequence
    | true =>
      exact sendable_of_unchecked rfl (Emits.cons (emits_writeBool true)
        (Emits.single (emits_writeUint32 idlHash))) rfl hsize sequence
  | runtimeHelloReply ack =>
    refine sendable_of_emits rfl Emits.nil
      (Emits.single (emits_serializeSessionHelloAck ack)) rfl ?_ ?_ sequence
    · simp [join, SessionHelloAck.layout, fixed]
    · simp [join, SessionHelloAck.layout, fixed, payloadRoom, maxMessageSize,
        messageHeaderSize]
  | runtimeListReply infos => exact sendable_runtimeListReply hsize sequence
  | _ => cases hreply

end ServiceManager

open View ServiceManager

variable {α : Type} {reserves : Nat → Bool} {layout : α → Layout} {readOne : View α} {least : Nat}

/-! ### Decoding -/

theorem wire_join_fixed (contents : List Bytes) :
    (join (contents.map .fixed)).wire = contents.flatten := by
  induction contents with
  | nil => rfl
  | cons content contents ih => exact congrArg (content ++ ·) ih

/-- No record is shorter than the client takes its shortest one to be. -/
theorem length_join_map_ge (h : ∀ element, least ≤ (layout element).wire.length) (elements : List α) :
    elements.length * least ≤ (join (elements.map layout)).wire.length := by
  induction elements with
  | nil => simp
  | cons element elements ih =>
    rw [map_cons, join, length_append, length_cons, Nat.succ_mul]
    have hfirst := h element
    omega

theorem ServiceInfo.length_layout_ge (info : ServiceInfo) : 28 ≤ info.layout.wire.length := by
  simp [layout, join, text, fixed, counted]
  omega

theorem InterfaceInfo.length_layout_ge (info : InterfaceInfo) : 10 ≤ info.layout.wire.length := by
  simp [InterfaceInfo.layout, join, text, fixed, counted]
  omega

/-- A count that says how many records follow passes the check, and the records are read. -/
theorem decodeCountedVector_of_wire {elements : List α} (hpos : 0 < least) (hleast : ∀ element, least ≤ (layout element).wire.length)
    (hread : ∀ element ∈ elements, Reads readOne (layout element).wire element)
    (hcount : elements.length < 2 ^ 32) (out : List α) :
    decodeCountedVector reserves readOne least out
        (encode 4 elements.length ++ (join (elements.map layout)).wire) =
      if reserves elements.length then (none, elements) else (some .errOutOfMemory, out) := by
  have htoNat : (UInt32.ofNat elements.length).toNat = elements.length := by
    rw [UInt32.toNat_ofNat', Nat.mod_eq_of_lt hcount]
  have hpasses : ¬ elements.length > (join (elements.map layout)).wire.length / least :=
    Nat.not_lt.mpr ((Nat.le_div_iff_mul_le hpos).mpr (length_join_map_ge hleast elements))
  have htimes := reads_times hread []
  rw [append_nil] at htimes
  rw [decodeCountedVector, tryReadUint32_encode]
  simp only [htoNat, if_neg hpos.ne', if_neg hpasses, htimes]
  cases reserves elements.length with
  | false => rfl
  | true => rfl

theorem decodeCountedVector_refused {out : List α} {view : Bytes}
    (h : (decodeCountedVector reserves readOne least out view).1 ≠ none) :
    (decodeCountedVector reserves readOne least out view).2 = out := by
  revert h
  rw [decodeCountedVector]
  rcases tryReadUint32 view with _ | ⟨count, rest⟩
  · exact fun _ => rfl
  simp only
  generalize (if least = 0 then 1 else least) = bound
  split_ifs
  · exact fun _ => rfl
  · exact fun _ => rfl
  · rcases readTimes readOne count.toNat rest with _ | ⟨decoded, -⟩
    · exact fun _ => rfl
    · exact fun h => absurd rfl h

/-! ### The three lists -/

/-- The payload of a reply that is made and fits a frame. -/
def ServiceManager.Outgoing.SentAs (out : Outgoing) (sequence : UInt32) (payload : Bytes) : Prop :=
  ∃ msg, out.message sequence = some msg ∧ (msg.serialize .succeeds Buffer.init).1 = true ∧
    payload = msg.payload.bytes

/-- The description was read from a request, as all that a registry holds were. -/
def ServiceInfo.FromWire (info : ServiceInfo) : Prop :=
  ∃ view rest, deserializeServiceInfo view = some (info, rest)

theorem ServiceInfo.FromWire.reads {info : ServiceInfo} (h : info.FromWire)
    (hfits : ¬ info.layout.Oversized) : Reads deserializeServiceInfo info.layout.wire info := by
  obtain ⟨view, rest, h⟩ := h
  simp only [deserializeServiceInfo, bind_eq_some] at h
  obtain ⟨_, _, -, _, _, -, _, _, -, _, _, -, _, _, -, req, _, -, resp, _, -, _, _, -, _, _, -, rfl, -⟩ := h
  exact reads_deserializeServiceInfo hfits req.toNat_lt resp.toNat_lt

/-- What was written before the count is `front`. -/
theorem decoded_of_sentAs (reserves : Nat → Bool) (front : List Bytes) {out : Outgoing} {sequence : UInt32} {payload : Bytes}
    {serialize : α → Write} {elements : List α}
    (hsent : out.SentAs sequence payload)
    (hpayload : out.payload .succeeds = Outgoing.checkedAfter
      ((front ++ [encode 4 (UInt32.ofNat elements.length).toNat]).map fun content =>
        (·.writeFixed .succeeds content)) (elements.map serialize))
    (hfront : front.flatten.length ≤ 1)
    (hemits : ∀ element, Emits (serialize element) (layout element))
    (hread : ∀ element ∈ elements, ¬ (layout element).Oversized →
      Reads readOne (layout element).wire element)
    (hpos : 0 < least) (hleast : ∀ element, least ≤ (layout element).wire.length) :
    ∃ rest, payload = front.flatten ++ rest ∧ ∀ out,
      decodeCountedVector reserves readOne least out rest =
        if reserves elements.length then (none, elements) else (some .errOutOfMemory, out) := by
  obtain ⟨msg, hmade, haccepted, rfl⟩ := hsent
  obtain ⟨buf, hbuf, rfl⟩ := Option.map_eq_some_iff.mp hmade
  have hsize : buf.writePos ≤ payloadRoom := (Message.serialize_accepts_iff _).mp haccepted
  generalize hfields : front ++ [encode 4 (UInt32.ofNat elements.length).toNat] = fields at hpayload
  have hflat : (join (fields.map .fixed)).wire =
      front.flatten ++ encode 4 (UInt32.ofNat elements.length).toNat := by
    rw [wire_join_fixed, ← hfields]
    simp
  obtain ⟨counted, hwrote, -, hcounted, -⟩ := (Emits.map emits_writeFixed fields).appends
    (by simp [oversized_join]) init rfl (by
      rw [hflat, length_append, length_encode]
      exact le_trans (Nat.add_le_add_left (Nat.add_le_add_right hfront 4) 0) (by decide))
  rw [hpayload, Outgoing.checkedAfter, unchecked_of_writeAll hwrote] at hbuf
  rcases hall : writeAll (elements.map serialize) counted with ⟨_ | _, written⟩
  · rw [hall] at hbuf
    cases hbuf
  rw [hall] at hbuf
  cases hbuf
  obtain ⟨hfits, hbytes⟩ := (Emits.map hemits elements).stores hall
  have hempty : init.bytes = [] := rfl
  rw [hcounted, hempty, nil_append, hflat] at hbytes
  have hcount : elements.length < 2 ^ 32 := by
    have hlong := (Nat.le_mul_of_pos_right _ hpos).trans (length_join_map_ge hleast elements)
    have htotal := congrArg length hbytes
    rw [length_append, length_bytes] at htotal
    have hroom : payloadRoom < 2 ^ 32 := by decide
    omega
  rw [UInt32.toNat_ofNat', Nat.mod_eq_of_lt hcount] at hbytes
  refine ⟨_, hbytes.trans (append_assoc _ _ _), ?_⟩
  refine decodeCountedVector_of_wire hpos hleast (fun element hmem => hread element hmem ?_) hcount
  exact fun hover => hfits (oversized_join.mpr ⟨_, mem_map_of_mem hmem, hover⟩)

end OmniBinder
