/-
Module: OmniBinder.Proofs.SmReplies
Purpose: Requests are answered.
Trusted boundary: none
Main exports: replies, requests_answered
-/
import OmniBinder.Proofs.PublishedTopics
import OmniBinder.Proofs.SmTopics

namespace OmniBinder.ServiceManager

open List Option ServiceRegistry MessageType App

variable {s s' : App} {entry : ServiceEntry} {fd : Int} {sequence : UInt32}

/-! ### Replies on record -/

/-- The reply that an entry hands to a connection under a sequence number. -/
def TraceEntry.reply? (fd : Int) (sequence : UInt32) : TraceEntry → Option Outgoing
  | .handed fd' sequence' out =>
    if fd' = fd ∧ sequence' = sequence ∧ out.isReply then some out else none
  | _ => none

/-- The replies handed to a connection under a sequence number, the last one first. -/
def replies (fd : Int) (sequence : UInt32) (trace : List TraceEntry) : List Outgoing :=
  trace.filterMap (TraceEntry.reply? fd sequence)

section
variable {fd : Int} {sequence : UInt32}

theorem replies_append (new trace : List TraceEntry)
    (hnew : ∀ entry ∈ new, entry.reply? fd sequence = none) :
    replies fd sequence (new ++ trace) = replies fd sequence trace := by
  rw [replies, filterMap_append, filterMap_eq_nil_iff.mpr hnew]
  rfl

theorem Touches.replies_eq (h : Touches s s') :
    replies fd sequence s'.trace = replies fd sequence s.trace := by
  obtain ⟨new, htrace, hnew⟩ := h.trace_eq
  rw [htrace]
  refine replies_append new s.trace fun entry hentry => ?_
  obtain ⟨fd', content, rfl⟩ := hnew entry hentry
  rfl

/-- Messages that answer nothing. -/
def NoReply (_ : ServiceRegistry) (out : Outgoing) : Prop := out.isReply = false

theorem replies_detach (s : App) (fd' : Int) (conn : ClientConnection) (notify : Bool) :
    replies fd sequence (s.detach fd' conn notify).2.trace = replies fd sequence s.trace := by
  simp only [detach]
  rw [replies_append]
  · rfl
  intro entry hentry
  split_ifs at hentry
  · cases hentry
  · obtain ⟨identity, -, rfl⟩ := List.mem_map.mp hentry
    rfl

theorem Nested.replies_eq (h : Nested NoReply s s') :
    replies fd sequence s'.trace = replies fd sequence s.trace := by
  induction h with
  | refl s => rfl
  | trans _ _ ih ih' => exact ih'.trans ih
  | touch htouch => exact htouch.replies_eq
  | @hand s fd' sequence' out halive hok =>
    refine replies_append [.handed fd' sequence' out] s.trace fun entry hentry => ?_
    obtain rfl := mem_singleton.mp hentry
    exact if_neg fun h => Bool.false_ne_true (hok.symm.trans h.2.2)
  | unwatch fd pid hgone => rfl
  | @close s s₁ s₂ fd' conn notify hconn hnotify htold hstop hgone ih ih' =>
    have hforgotten : (s₁.forgotten fd' conn).trace = s₁.trace := (forget_frame s₁ fd' conn).2.2.2.2.1
    rw [ih', hforgotten, ih, replies_detach]

/-- Between the replies nothing is answered. -/
theorem Steps.replies_eq {kinds : Effect → Prop} {fd' : Int}
    (h : Steps NoReply kinds fd' s s') : replies fd sequence s'.trace = replies fd sequence s.trace := by
  induction h with
  | sends h => exact h.nested.replies_eq
  | @effect s e _ _ =>
    obtain ⟨new, htrace, hnew⟩ := trace_effect s fd' e
    rw [htrace]
    refine replies_append new s.trace fun entry hentry => ?_
    have hrecords := hnew entry hentry
    cases e <;> cases hrecords <;> rfl
  | trans _ _ ih ih' => exact ih'.trans ih

end

/-! ### Requests and what they ask for -/

/-- The requests that have a reply, each with the type of its reply. -/
def replyTypes : List (UInt16 × UInt16) :=
  [(MessageType.register, MessageType.registerReply),
    (MessageType.unregister, MessageType.unregisterReply),
    (MessageType.lookup, MessageType.lookupReply),
    (MessageType.listInstances, MessageType.listInstancesReply),
    (MessageType.listServices, MessageType.listServicesReply),
    (MessageType.queryInterfaces, MessageType.queryInterfacesReply),
    (MessageType.queryPublishedTopics, MessageType.queryPublishedTopicsReply),
    (MessageType.subscribeServiceWatch, MessageType.subscribeServiceWatchReply),
    (MessageType.publishTopic, MessageType.publishTopicReply),
    (MessageType.subscribeTopic, MessageType.subscribeTopicReply),
    (MessageType.runtimeHello, MessageType.runtimeHelloReply),
    (MessageType.runtimeList, MessageType.runtimeListReply),
    (MessageType.diagSetLogLevel, MessageType.diagSetLogLevelReply),
    (MessageType.diagWatchStart, MessageType.diagWatchStartReply),
    (MessageType.diagWatchStop, MessageType.diagWatchStopReply)]

/-- The service that a request names, in its first instance. -/
def App.namedService (s : App) (msg : ReceivedMessage) : Option ServiceInfo :=
  ((tryReadStringArg msg).bind s.registry.findService).map (·.info)

/-- The instances of the service that a request names. -/
def App.namedInstances (s : App) (msg : ReceivedMessage) : List ServiceInfo :=
  match tryReadStringArg msg with
  | none => []
  | some name => s.registry.listServiceInstances name

/-- The services but those of the diagnosis. -/
def App.listedServices (s : App) : List ServiceInfo :=
  s.registry.listServices.filter fun info => !diagServiceNameStart.isPrefixOf info.name

/-- The processes that have said hello, with the services of all their connections. -/
def App.listedRuntimes (s : App) : List RuntimeInfo :=
  (s.clients.toList.foldl
    (fun rows (client, conn) =>
      if conn.runtimeRegistered then
        App.listRuntime (s.registry.listServiceNamesByFd client) conn rows
      else rows) []).map fun row =>
    { row with role := if row.services.isEmpty then ascii "client" else ascii "service" }

/-- The number of bytes that a request asks to be told of services or runtimes. -/
def App.replySize (s : App) (msg : ReceivedMessage) : Nat :=
  if msg.type = MessageType.lookup then
    1 + ((s.namedService msg).toList.map ServiceInfo.wireSize).sum
  else if msg.type = MessageType.listInstances then
    5 + ((s.namedInstances msg).map ServiceInfo.wireSize).sum
  else if msg.type = MessageType.listServices then
    4 + (s.listedServices.map ServiceInfo.wireSize).sum
  else if msg.type = MessageType.queryInterfaces then
    5 + ((((s.namedService msg).map (·.interfaces)).getD []).map InterfaceInfo.wireSize).sum
  else if msg.type = MessageType.runtimeList then
    4 + (s.listedRuntimes.map RuntimeInfo.wireSize).sum
  else 0

/-! ### One reply -/

/-- Unless the connection is closed, it is handed one reply of the type its request asks for, and the
    reply can be sent. -/
def Answers (fd : Int) (msg : ReceivedMessage) (s s' : App) : Prop :=
  s'.Alive fd → ∃ out, replies fd msg.sequence s'.trace = out :: replies fd msg.sequence s.trace ∧
    (msg.type, out.type) ∈ replyTypes ∧ out.Sendable msg.sequence

variable {out : Outgoing}

section
variable {s s₁ s' : App} {fd : Int} {msg : ReceivedMessage} {kinds : Effect → Prop}

/-- A reply with nothing but unprompted messages before and after it. -/
theorem answers_of_steps (hbefore : Steps NoReply kinds fd s s₁)
    (hafter : Steps NoReply kinds fd (s₁.sendMessage closeFailed fd msg.sequence out) s')
    (hreply : out.isReply = true) (htype : (msg.type, out.type) ∈ replyTypes)
    (hsendable : out.Sendable msg.sequence) : Answers fd msg s s' := by
  intro halive
  refine ⟨out, ?_, htype, hsendable⟩
  obtain ⟨made, hmade, -⟩ := hsendable
  have hhanded := sendMessage_alive (closes_closeFailed anyMessage_of_unprompted s₁.clients.size) le_rfl
    (by rw [hmade]; exact some_ne_none made) (hafter.alive halive)
  rw [hafter.replies_eq, hhanded.replies_eq, ← hbefore.replies_eq]
  exact filterMap_cons_some (if_pos ⟨rfl, rfl, hreply⟩)

theorem sendable_of_isShort (h : out.isShort = true) (sequence : UInt32) :
    out.isReply = true ∧ out.Sendable sequence := by
  cases out with
  | registerReply handle =>
    exact ⟨rfl, sendable_of_size (.registerReply handle) rfl trivial (show 4 ≤ _ by decide) sequence⟩
  | boolReply type ok =>
    exact ⟨rfl, sendable_of_size (.boolReply type ok) rfl trivial (show 1 ≤ _ by decide) sequence⟩
  | subscribeTopicReply added idlHash =>
    exact ⟨rfl, sendable_of_size (.subscribeTopicReply added idlHash) rfl trivial
      (show 5 ≤ _ by decide) sequence⟩
  | runtimeHelloReply ack =>
    exact ⟨rfl, sendable_of_size (.runtimeHelloReply ack) rfl trivial (show 20 ≤ _ by decide) sequence⟩
  | _ => cases h

theorem Answered.answers {reply : UInt16} (h : Answered fd msg reply s s')
    (hasked : (msg.type, reply) ∈ replyTypes) : Answers fd msg s s' := by
  rcases h with ⟨out, hshort, rfl, hbefore, hafter⟩ | ⟨-, hgone⟩
  · have hsendable := sendable_of_isShort hshort msg.sequence
    have hsilent : ∀ registry out, Aside msg.type registry out → NoReply registry out :=
      fun _ _ => And.right
    exact answers_of_steps (hbefore.mono hsilent fun _ => id) (hafter.mono hsilent fun _ => id)
      hsendable.1 hasked hsendable.2
  · exact fun halive => absurd halive hgone

end

/-! ### The handlers -/

variable {info : ServiceInfo} {conn : ClientConnection}

section
variable {s : App} {fd : Int} {msg : ReceivedMessage}

/-- A request that only reads: its reply is measured. -/
theorem answers_measured (out : Outgoing) (hreply : out.isReply = true)
    (htype : (msg.type, out.type) ∈ replyTypes) (hcount : out.Countable)
    (hsize : out.bodySize ≤ payloadRoom) :
    Answers fd msg s (s.sendMessage closeFailed fd msg.sequence out) :=
  have hrefl : ∀ s, Steps NoReply (fun _ => False) fd s s := fun s => .refl s fd
  answers_of_steps (hrefl s) (hrefl _) hreply htype
    (sendable_of_size out hreply hcount hsize msg.sequence)

/-! ### What is described -/

theorem countable_findService (h : Portable s) {name : Bytes}
    (hfound : s.registry.findService name = some entry) : entry.info.Countable := by
  obtain ⟨⟨key, entry'⟩, hhead, rfl⟩ := map_eq_some_iff.mp hfound
  exact (h.entry name key entry' (NestedTable.mem_entries.mp (mem_of_head? hhead))).1

theorem countable_namedService (h : Portable s) (hinfo : info ∈ s.namedService msg) :
    info.Countable := by
  obtain ⟨entry, hfound, rfl⟩ := map_eq_some_iff.mp hinfo
  obtain ⟨name, -, hfound⟩ := bind_eq_some_iff.mp hfound
  exact countable_findService h hfound

theorem countable_namedInstances (h : Portable s) (hinfo : info ∈ s.namedInstances msg) :
    info.Countable := by
  unfold namedInstances at hinfo
  split at hinfo
  · cases hinfo
  · obtain ⟨key, entry, hentry, rfl⟩ := mem_listServiceInstances.mp hinfo
    exact (h.entry _ key entry hentry).1

theorem countable_listedServices (h : Portable s) (hinfo : info ∈ s.listedServices) :
    info.Countable := by
  obtain ⟨⟨name, key, entry⟩, hmem, rfl⟩ := List.mem_map.mp (List.mem_filter.mp hinfo).1
  exact (h.entry name key entry (NestedTable.mem_toList.mp hmem)).1

theorem answers_handleQueryPublishedTopics
    (hasked : (msg.type, queryPublishedTopicsReply) ∈ replyTypes)
    (h : s.topicManager.tables.PublishedWithin) : Answers fd msg s (s.handleQueryPublishedTopics fd msg) := by
  have hnone : ∀ found, Answers fd msg s (s.sendMessage closeFailed fd msg.sequence
      (.queryPublishedTopicsReply found [])) := fun found =>
    answers_measured (.queryPublishedTopicsReply found []) rfl hasked
      ⟨fun _ => rfl, Nat.zero_le _, rfl⟩ (show 5 ≤ _ by decide)
  unfold handleQueryPublishedTopics
  split
  · exact hnone false
  next name hname =>
  simp only
  split_ifs with hfound
  · obtain ⟨hcount, hsize⟩ := h.reply name
    rw [hfound]
    exact answers_measured (.queryPublishedTopicsReply true (s.topicManager.getPublishedTopics name))
      rfl hasked hcount hsize
  · exact hnone _

/-- Every request is answered, as long as the reply is not too long. -/
theorem answers_dispatchMessage (hconn : s.clients[fd]? = some conn) (hportable : Portable s)
    (hwithin : s.topicManager.tables.PublishedWithin) {type : UInt16}
    (hasked : (msg.type, type) ∈ replyTypes) (hfits : s.replySize msg ≤ payloadRoom) :
    Answers fd msg s (s.dispatchMessage fd conn msg) := by
  have halive : s.Alive fd := ⟨conn, hconn⟩
  have hmem := hasked
  simp only [replyTypes, mem_cons, Prod.mk.injEq, not_mem_nil, or_false] at hmem
  unfold replySize at hfits
  unfold dispatchMessage
  rcases hmem with ⟨htype, rfl⟩ | ⟨htype, rfl⟩ | ⟨htype, rfl⟩ | ⟨htype, rfl⟩ | ⟨htype, rfl⟩ |
    ⟨htype, rfl⟩ | ⟨htype, rfl⟩ | ⟨htype, rfl⟩ | ⟨htype, rfl⟩ | ⟨htype, rfl⟩ | ⟨htype, rfl⟩ |
    ⟨htype, rfl⟩ | ⟨htype, rfl⟩ | ⟨htype, rfl⟩ | ⟨htype, rfl⟩ <;> rw [htype] at hfits ⊢
  · exact (answered_handleRegister s fd msg htype conn halive).answers hasked
  · exact (answered_handleUnregister s fd msg htype).answers hasked
  · exact answers_measured (.lookupReply (s.namedService msg)) rfl hasked
      (fun _ => countable_namedService hportable) hfits
  · exact answers_measured (.listInstancesReply (!(s.namedInstances msg).isEmpty) (s.namedInstances msg))
      rfl hasked (fun _ => countable_namedInstances hportable) hfits
  · exact answers_measured (.listServicesReply s.listedServices) rfl hasked
      (fun _ => countable_listedServices hportable) hfits
  · have hmade : s.handleQueryInterfaces fd msg = s.sendMessage closeFailed fd msg.sequence
        (.queryInterfacesReply ((s.namedService msg).map (·.interfaces))) := by
      rw [handleQueryInterfaces, namedService, Option.map_map]
      rfl
    rw [hmade]
    refine answers_measured _ rfl hasked (fun interfaces hinterfaces => ?_) hfits
    obtain ⟨info, hinfo, rfl⟩ := map_eq_some_iff.mp hinterfaces
    exact (countable_namedService hportable hinfo).2
  · exact answers_handleQueryPublishedTopics hasked hwithin
  · exact (answered_handleSubscribeServiceWatch s fd msg htype halive).answers hasked
  · exact (answered_handlePublishTopic s fd msg htype halive).answers hasked
  · exact (answered_handleSubscribeTopic s fd msg htype halive).answers hasked
  · exact (answered_handleRuntimeHello s fd msg htype).answers hasked
  · exact answers_measured (.runtimeListReply s.listedRuntimes) rfl hasked trivial hfits
  · exact (answered_handleDiagSetLogLevel s fd msg).answers hasked
  · exact (answered_handleDiagWatchStart s fd msg htype).answers hasked
  · exact (answered_handleDiagWatchStop s fd msg htype).answers hasked

end

/-! ### Reachable states -/

theorem publishedWithin_step (event : Event × List SendOutcome)
    (h : s.topicManager.tables.PublishedWithin) : (s.step event).topicManager.tables.PublishedWithin := by
  -- what happens besides publishing only takes slots away
  have hless : ∀ {s s' : App}, s.topicManager.tables.PublishedWithin →
      (∀ n t i slot, s'.topicManager.slot? n t i = some slot → s.topicManager.slot? n t i = some slot) →
      s'.topicManager.tables.PublishedWithin := fun {s s'} hs hslots =>
    hs.of_recedes (.of_slots (fun _ => s'.topicManager.indexed.keyed) fun n t i slot hslot =>
      ⟨slot, hslots n t i slot hslot⟩)
  refine step_invariant (P := fun s => s.topicManager.tables.PublishedWithin)
    (fun s s' hnested hs => ?_) (fun s s' fd _ haccepted hs => ?_) (fun s fd e hfits hs => ?_) event h
  · exact hless hs fun n t i slot hslot => ((hnested.shrinks.slot n t i slot).mp hslot).1
  · exact hless hs fun n t i slot hslot => haccepted.topicManager_eq ▸ hslot
  by_cases hpublish : ∃ topic info idlHash, e = .publish topic info idlHash
  · obtain ⟨topic, info, idlHash, rfl⟩ := hpublish
    exact hs.registerPublisher topic info fd idlHash
  · refine hless hs fun n t i slot hslot => ?_
    rcases slot?_effect e hfits hslot with ⟨topic, info, idlHash, he, -⟩ | ⟨-, hold⟩
    · exact absurd ⟨topic, info, idlHash, he⟩ hpublish
    · exact hold

/-- In every reachable state a request is answered: unless its connection is closed in the meantime, it is
    handed exactly one reply under its sequence number, of the type that belongs to the request and not
    too long for a frame, provided that what the request asks to be described is not. -/
theorem requests_answered {s : App} (hs : s.Reachable) (fd : Int) (msg : ReceivedMessage)
    (plan : List SendOutcome) {type : UInt16} (hasked : (msg.type, type) ∈ replyTypes)
    (hfits : s.replySize msg ≤ payloadRoom) (halive : (s.step (.message fd msg, plan)).Alive fd) :
    ∃ out, replies fd msg.sequence (s.step (.message fd msg, plan)).trace =
        out :: replies fd msg.sequence s.trace ∧
      (msg.type, out.type) ∈ replyTypes ∧ out.Sendable msg.sequence := by
  have hportable := (announcing_of_reachable hs).portable
  have hwithin : s.topicManager.tables.PublishedWithin :=
    hs.invariant (P := fun s => s.topicManager.tables.PublishedWithin)
      (fun _ _ => TopicTables.publishedWithin_init) publishedWithin_step
  have hplan := (touches_plan s plan).shrinks
  rcases hconn : s.clients[fd]? with _ | conn
  · -- nobody asks
    have hsame : s.step (.message fd msg, plan) = { s with plan } := by
      simp only [step, handle, hconn]
    rw [hsame] at halive
    exact absurd (hplan.alive halive) (not_alive_iff.mpr hconn)
  · have hmade : s.step (.message fd msg, plan) = { s with plan }.dispatchMessage fd conn msg := by
      simp only [step, handle, hconn]
    rw [hmade] at halive ⊢
    exact answers_dispatchMessage (s := { s with plan }) hconn (hportable.of_shrinks hplan)
      hwithin hasked hfits halive

/-! ### A description as long as a frame -/

/-- A message that fits no frame is not made, or handed over and lost. -/
theorem sendMessage_lost (close : Int → App → App) (fd : Int)
    (hlong : ¬ out.Sendable sequence) : s.sendMessage close fd sequence out = s ∨
      s.sendMessage close fd sequence out = s.record (.handed fd sequence out) := by
  unfold sendMessage
  rcases s.clients[fd]? with _ | conn
  · exact .inl rfl
  rcases hmade : out.message sequence with _ | made
  · exact .inl rfl
  · simp only
    rcases hserialize : made.serialize .succeeds Buffer.init with ⟨_ | _, output⟩
    · exact .inr rfl
    · exact absurd ⟨made, hmade, congrArg Prod.fst hserialize⟩ hlong

/-- A host name that fills the frame of a registration. -/
def longHost : Bytes := List.replicate 16777171 0

theorem length_longHost : longHost.length = 16777171 := length_replicate

def longInfo : ServiceInfo := { ServiceInfo.init with name := ascii "S", host := longHost }

theorem longInfo_fits : ¬ longInfo.layout.Oversized := by
  have hhost : longInfo.host.length = 16777171 := length_longHost
  have hnone : longInfo.interfaces = [] := rfl
  simp only [ServiceInfo.layout, Layout.oversized_join_cons, Layout.oversized_text,
    Layout.oversized_fixed, Layout.oversized_join_nil, Layout.oversized_counted, hhost, hnone, map_nil]
  decide

theorem wireSize_longInfo : longInfo.wireSize = 16777200 := by
  have hhost : stringSize longInfo.host = 16777175 := by
    rw [stringSize, show longInfo.host = longHost from rfl, length_longHost]
  have hname : stringSize longInfo.name = 5 := rfl
  have hhostId : stringSize longInfo.hostId = 4 := rfl
  have hinstance : stringSize longInfo.instanceId = 4 := rfl
  have hnone : (longInfo.interfaces.map InterfaceInfo.wireSize).sum = 0 := rfl
  rw [ServiceInfo.wireSize, hname, hhost, hhostId, hinstance, hnone]

theorem reads_longInfo : Reads deserializeServiceInfo longInfo.layout.wire longInfo :=
  reads_deserializeServiceInfo longInfo_fits (by decide) (by decide)

theorem length_longInfo : longInfo.layout.wire.length = maxMessageSize - messageHeaderSize := by
  have hread := reads_longInfo []
  rw [append_nil] at hread
  rw [(deserializeServiceInfo_bounds hread).1, wireSize_longInfo, length_nil]
  decide

/-- The registration of the service with that host. -/
def registerLong : ReceivedMessage :=
  ⟨MessageType.register, 2, longInfo.layout.wire, length_longInfo.le⟩

theorem read_registerLong : deserializeServiceInfo.run registerLong.payload = some longInfo := by
  have hread := reads_longInfo []
  rw [append_nil] at hread
  exact congrArg (Option.map Prod.fst) hread

/-- A client that has said hello. -/
def greetedRun : List (Event × List SendOutcome) :=
  [(.accept 4, []), (.message 4 (helloMessage 10 (ascii "a") 1), [])]

/-- It registers the service and looks it up. -/
def lookupSample : ReceivedMessage :=
  clientMessage MessageType.lookup 7 fun buf => buf.writeString .succeeds (ascii "S")

/-- The client has said hello, and nothing is registered. -/
theorem greetedRun_spec : (∃ conn, ((init 0 7).run greetedRun).clients[(4 : Int)]? = some conn ∧
      conn.helloReceived = true) ∧
    ((init 0 7).run greetedRun).registry.tables.servicesByName.isEmpty = true := by
  have hclient : (((init 0 7).run greetedRun).clients[(4 : Int)]?).any
      ClientConnection.helloReceived = true := by
    decide +kernel
  rw [Option.any_eq_true] at hclient
  exact ⟨hclient, by decide +kernel⟩

/-- The registration is made. -/
theorem step_registerLong : (((init 0 7).run greetedRun).step (.message 4 registerLong, [])).Alive 4 ∧
    ∃ entry, (((init 0 7).run greetedRun).step (.message 4 registerLong, [])).registry.findService
      (ascii "S") = some entry ∧ entry.info = longInfo := by
  obtain ⟨⟨conn, hconn, hhello⟩, hempty⟩ := greetedRun_spec
  obtain ⟨haccept, hdisplaced⟩ :
      (((init 0 7).run greetedRun).registry.addService longInfo 4).1 ≠ invalidHandle ∧
        (((init 0 7).run greetedRun).registry.addService longInfo 4).2.1 = -1 := by
    decide +kernel
  have hmade := step_register hconn hhello rfl read_registerLong haccept []
  have halive : (((init 0 7).run greetedRun).step (.message 4 registerLong, [])).Alive 4 := by
    rw [hmade]
    exact contains_iff.mp (by decide +kernel)
  have hfound : ((((init 0 7).run greetedRun).step (.message 4 registerLong, [])).registry.findService
      (ascii "S")).isSome = true := by
    rw [hmade]
    decide +kernel
  obtain ⟨entry, hfound⟩ := isSome_iff_exists.mp hfound
  refine ⟨halive, entry, hfound, ?_⟩
  -- whatever is registered now was registered by this step
  generalize (init 0 7).run greetedRun = s at *
  obtain ⟨⟨key, _⟩, hhead, rfl⟩ := map_eq_some_iff.mp hfound
  have hentry := NestedTable.mem_entries.mp (mem_of_head? hhead)
  rw [hmade, hdisplaced, releaseDisplaced, if_neg (fun h => absurd h.1 (by decide))] at hentry
  have hadded := (((nested_announced { s with plan := [] } 4 registerLong.sequence
    longInfo).shrinks.registry _ key _).mp hentry).1
  rcases findEntry_effect (.register longInfo) ⟨⟨conn, hconn⟩, haccept, received_of_run read_registerLong⟩
    hadded with ⟨info, hsame, -, -, -, hinfo⟩ | hold
  · cases hsame
    exact hinfo
  · exact absurd (hold.symm.trans (NestedTable.get?_of_isEmpty hempty _ _)) (some_ne_none _)

theorem longInfo_not_sendable (sequence : UInt32) :
    ¬ (Outgoing.lookupReply (some longInfo)).Sendable sequence := by
  have hcount : longInfo.Countable := ⟨Nat.zero_le _, nofun⟩
  rw [sendable_lookupReply_iff hcount (by rw [wireSize_longInfo]; decide), wireSize_longInfo]
  decide

theorem clientMessage_header (type : UInt16) (sequence : UInt32) (write : Buffer → Bool × Buffer) :
    (clientMessage type sequence write).type = type ∧
      (clientMessage type sequence write).sequence = sequence := by
  unfold clientMessage
  simp only
  split_ifs
  · exact ⟨rfl, rfl⟩
  · exact ⟨rfl, rfl⟩

theorem run_concat (s : App) (events : List (Event × List SendOutcome))
    (event : Event × List SendOutcome) : s.run (events ++ [event]) = (s.run events).step event :=
  foldl_append ..

/-- A request of the client for a service of that name. -/
theorem step_lookupSample (halive : s.Alive 4)
    (hfound : s.registry.findService (ascii "S") = some entry) :
    s.step (.message 4 lookupSample, []) = { s with plan := [] }.sendMessage closeFailed 4 7
      (.lookupReply (some entry.info)) := by
  obtain ⟨conn, hconn⟩ := halive
  obtain ⟨htype, hsequence⟩ : lookupSample.type = lookup ∧ lookupSample.sequence = 7 :=
    clientMessage_header _ _ _
  have hread : tryReadStringArg lookupSample = some (ascii "S") := by decide +kernel
  rw [step, handle, hconn]
  simp only [dispatchMessage, htype]
  rw [handleLookup, hread, hsequence, bind_some, hfound]
  rfl

/-- A client that looks the long description up gets no reply that can be sent. -/
theorem lookup_lost (halive : s.Alive 4) (hfound : s.registry.findService (ascii "S") = some entry)
    (hlong : entry.info = longInfo) : (s.step (.message 4 lookupSample, [])).Alive 4 ∧
      ¬ ∃ out, replies 4 7 (s.step (.message 4 lookupSample, [])).trace = out :: replies 4 7 s.trace ∧
        out.Sendable 7 := by
  rw [step_lookupSample halive hfound, hlong]
  rcases sendMessage_lost (s := { s with plan := [] }) closeFailed 4 (longInfo_not_sendable 7) with
    hmade | hmade
  · rw [hmade]
    exact ⟨halive, fun ⟨out, heq, _⟩ => cons_ne_self _ _ heq.symm⟩
  · rw [hmade]
    refine ⟨halive, fun ⟨out, heq, hsendable⟩ => ?_⟩
    obtain rfl := (List.cons.inj heq).1
    exact longInfo_not_sendable _ hsendable

/-- The client that registered the long description is not told it. -/
theorem long_description_unanswered :
    let s := (App.init 0 7).run (greetedRun ++ [(.message 4 registerLong, [])])
    (MessageType.lookup, MessageType.lookupReply) ∈ replyTypes ∧
      lookupSample.type = MessageType.lookup ∧ lookupSample.sequence = 7 ∧
      (s.step (.message 4 lookupSample, [])).Alive 4 ∧
      ¬ ∃ out, replies 4 7 (s.step (.message 4 lookupSample, [])).trace = out :: replies 4 7 s.trace ∧
        out.Sendable 7 := by
  obtain ⟨halive, entry, hfound, hlong⟩ := step_registerLong
  simp only [run_concat]
  exact ⟨by decide, (clientMessage_header _ _ _).1, (clientMessage_header _ _ _).2,
    lookup_lost halive hfound hlong⟩

/-- A service with nothing but its name is found. -/
theorem short_description_answered :
    let s := (App.init 0 7).run (greetedRun ++ [(.message 4 (registerMessage (ascii "S")), [])])
    ∃ out, replies 4 lookupSample.sequence (s.step (.message 4 lookupSample, [])).trace =
        out :: replies 4 lookupSample.sequence s.trace ∧
      (lookupSample.type, out.type) ∈ replyTypes ∧ out.Sendable lookupSample.sequence := by
  intro s
  have hasked : (lookupSample.type, lookupReply) ∈ replyTypes := by
    rw [lookupSample, (clientMessage_header _ _ _).1]
    decide
  exact requests_answered ⟨0, 7, _, rfl⟩ 4 lookupSample [] hasked (by decide +kernel) (by decide +kernel)

end OmniBinder.ServiceManager
