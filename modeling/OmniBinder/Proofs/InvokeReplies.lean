/-
Module: OmniBinder.Proofs.InvokeReplies
Purpose: Which invocations are answered.
Trusted boundary: none
Main exports: InvokeDispatchResult.FitsFrame, invocation_answered_iff
-/
import OmniBinder.Runtime.InvokeDispatch
import OmniBinder.Proofs.SendDiscipline

namespace OmniBinder

open LittleEndian DataPlane

variable {conn : Nat}

/-! ### The reply message -/

namespace DataPlane

/-- The bytes of the response a reply carries. -/
def InvokeOutcome.response : InvokeOutcome → Bytes
  | .success response => response
  | .error _ => []

/-- The two numbers in front of the response. -/
theorem writeReplyHeader (status : Int32) (size : UInt32) :
    ∃ buf, Message.thenWrite (Buffer.init.writeInt32 .succeeds status)
        (·.writeUint32 .succeeds size) = (true, buf) ∧
      buf.writeFailed = false ∧ buf.writePos = 8 := by
  have hputs := (Buffer.puts_writeFixed .succeeds (encode 4 status.toUInt32.toNat)).andThen
    (Buffer.puts_writeFixed .succeeds (encode 4 size.toNat))
  obtain ⟨buf, hwrite, hclear, -, hpos⟩ := hputs.appends ⟨trivial, trivial⟩ Buffer.init rfl
    (by simp [Buffer.init, sizeMax])
  exact ⟨buf, hwrite, hclear, by simpa [Buffer.init] using hpos⟩

/-- The reply to an invocation is a reply message with the sequence number of the request, and its
    payload is eight bytes longer than the response. -/
theorem makeInvokeReply_spec (seq : UInt32) {outcome : InvokeOutcome}
    (hlength : outcome.response.length ≤ sizeMax / 4) :
    let reply := makeInvokeReply .succeeds seq outcome
    reply.header.type = msgInvokeReply ∧ reply.getSequence = seq ∧
      reply.payload.writeFailed = false ∧ reply.payload.size = 8 + outcome.response.length := by
  refine ⟨by cases outcome <;> rfl, by cases outcome <;> rfl, ?_⟩
  cases outcome with
  | error code =>
    obtain ⟨buf, hheader, hclear, hpos⟩ := writeReplyHeader code 0
    simp only [makeInvokeReply, messageWith, hheader]
    exact ⟨hclear, hpos⟩
  | success response =>
    obtain ⟨buf, hheader, hclear, hpos⟩ := writeReplyHeader 0 (UInt32.ofNat response.length)
    simp only [InvokeOutcome.response] at hlength ⊢
    rw [makeInvokeReply, messageWith, hheader, Message.thenWrite]
    by_cases hcontent : response.length > 0
    · have hroom : buf.writePos + response.length ≤ sizeMax / 2 := by
        simp only [sizeMax] at hlength ⊢
        omega
      obtain ⟨whole, hwrite, hclear', -, hpos'⟩ :=
        (Buffer.puts_writeRaw .succeeds response).appends trivial buf hclear hroom
      rw [if_pos hcontent, hwrite]
      exact ⟨hclear', by rw [Buffer.size, hpos', hpos]⟩
    · rw [if_neg hcontent]
      exact ⟨hclear, by rw [Buffer.size, hpos]; omega⟩

theorem fits_makeInvokeReply (seq : UInt32) {outcome : InvokeOutcome}
    (hlength : outcome.response.length ≤ sizeMax / 4) :
    (makeInvokeReply .succeeds seq outcome).Fits ↔
      outcome.response.length ≤ maxMessageSize - messageHeaderSize - 8 := by
  simp only [Message.Fits, (makeInvokeReply_spec seq hlength).2.2.2, maxMessageSize, messageHeaderSize]
  omega

/-! ### Sending it -/

/-- A send appends one record to what was sent on its connection, and nothing to the others. -/
theorem sends_sendAll (st : DataPlane) (conn : Nat) (frame : Bytes) (timeoutMs : Nat)
    (plan : List SocketSend) :
    (∃ sent, (st.sendAll conn frame timeoutMs plan).2.sends conn = st.sends conn ++ [⟨frame, sent⟩]) ∧
      ∀ other ≠ conn, (st.sendAll conn frame timeoutMs plan).2.sends other = st.sends other := by
  refine ⟨⟨(socketSendAll frame.length timeoutMs plan 0).1, ?_⟩, fun other hother => ?_⟩
  · simp [sendAll, sends]
  · simp [sendAll, sends, Table.getElem?_insert_of_ne _ hother.symm]

section Reply

variable (st : DataPlane) (name : Bytes) (entryId : Nat) (clientId : Int) (seq : UInt32)
  {outcome : InvokeOutcome} (plan : List SocketSend)

section
variable (hlength : outcome.response.length ≤ sizeMax / 4)
include hlength

/-- A reply that fits one frame is handed to the connection of the client, once. -/
theorem sendInvokeReply_fits
    (hfits : outcome.response.length ≤ maxMessageSize - messageHeaderSize - 8)
    (hlive : st.liveClient name entryId clientId = some conn) :
    ∃ sent, (st.sendInvokeReply .succeeds name entryId clientId seq outcome plan).sends conn =
        st.sends conn ++ [⟨(makeInvokeReply .succeeds seq outcome).wire, sent⟩] ∧
      ∀ other ≠ conn,
        (st.sendInvokeReply .succeeds name entryId clientId seq outcome plan).sends other =
          st.sends other := by
  have haccepted := (Message.serializeInPlace_accepts_iff _).mpr
    ((fits_makeInvokeReply seq hlength).mpr hfits)
  obtain ⟨framed, hserialized⟩ : ∃ framed,
      (makeInvokeReply .succeeds seq outcome).serializeInPlace .succeeds =
        (true, framed) := ⟨_, Prod.ext haccepted rfl⟩
  have hwire := (Message.serializeInPlace_ok hserialized).2
  obtain ⟨⟨sent, hsent⟩, hothers⟩ :=
    sends_sendAll st conn framed.payload.bytes st.replySendTimeoutMs plan
  simp only [sendInvokeReply, hlive, sendOnFd, sendWithBudget, hserialized]
  rw [hwire] at hsent hothers ⊢
  exact ⟨sent, hsent, hothers⟩

/-- A reply that is too large for one frame is dropped. -/
theorem sendInvokeReply_too_large
    (hlarge : ¬ outcome.response.length ≤ maxMessageSize - messageHeaderSize - 8) :
    st.sendInvokeReply .succeeds name entryId clientId seq outcome plan = st := by
  obtain ⟨kept, hrefused⟩ : ∃ kept,
      (makeInvokeReply .succeeds seq outcome).serializeInPlace .succeeds =
        (false, kept) := by
    refine ⟨_, Prod.ext ?_ rfl⟩
    rw [← Bool.not_eq_true, Message.serializeInPlace_accepts_iff, fits_makeInvokeReply seq hlength]
    exact hlarge
  unfold sendInvokeReply
  split
  · rfl
  · simp only [sendOnFd, sendWithBudget, hrefused]

/-- What is sent on a connection other than the client's is not touched by its reply. -/
theorem sends_sendInvokeReply_of_ne
    (hlive : st.liveClient name entryId clientId ≠ some conn) :
    (st.sendInvokeReply .succeeds name entryId clientId seq outcome plan).sends conn =
      st.sends conn := by
  by_cases hfits : outcome.response.length ≤ maxMessageSize - messageHeaderSize - 8
  · cases htarget : st.liveClient name entryId clientId with
    | none => simp only [sendInvokeReply, htarget]
    | some target =>
      obtain ⟨_, -, hothers⟩ := sendInvokeReply_fits st name entryId clientId seq plan hlength hfits
        htarget
      refine hothers conn ?_
      rintro rfl
      exact hlive htarget
  · rw [sendInvokeReply_too_large st name entryId clientId seq plan hlength hfits]

end

end Reply

end DataPlane

/-! ### The dispatch -/

namespace InvokeDispatchResult

/-- The reply made of a result fits one frame. -/
def FitsFrame (result : InvokeDispatchResult) : Prop :=
  result.status = .success → result.response.length ≤ maxMessageSize - messageHeaderSize - 8

instance (result : InvokeDispatchResult) : Decidable result.FitsFrame :=
  inferInstanceAs (Decidable (_ → _))

theorem fitsFrame_iff (result : InvokeDispatchResult) : result.FitsFrame ↔
      result.outcome.response.length ≤ maxMessageSize - messageHeaderSize - 8 := by
  unfold FitsFrame outcome
  cases result.status <;> simp [DataPlane.InvokeOutcome.response]

end InvokeDispatchResult

namespace Host

section
variable (context : InvokeContext) (name : Bytes)

theorem length_diagGranted :
    (diagGranted .succeeds).outcome.response.length ≤ sizeMax / 4 := by
  decide

/-- The built-in diagnostic interface answers with at most one byte. -/
theorem length_dispatchDiagInvoke (request : Bytes) (host : Host) :
    (host.dispatchDiagInvoke .succeeds context name request).1.outcome.response.length ≤
      sizeMax / 4 := by
  have hfailure : ∀ status code,
      (InvokeDispatchResult.failure status code).outcome.response.length ≤ sizeMax / 4 := by
    intro status code
    cases status <;> exact Nat.zero_le _
  have henable : (host.enableDiag .succeeds context name).1.outcome.response.length ≤
      sizeMax / 4 := by
    unfold enableDiag
    generalize (if context.diagTopicId = 0 then _ else _) = published
    obtain ⟨topicId, host'⟩ := published
    dsimp only
    split
    · exact hfailure _ _
    · split_ifs
      · exact length_diagGranted
      · exact hfailure _ _
  unfold dispatchDiagInvoke
  split
  · exact hfailure _ _
  dsimp only
  split_ifs
  · exact length_diagGranted
  · exact henable
  · exact length_diagGranted
  · exact length_diagGranted

/-- Whatever the dispatch comes to, its response is one the process can hold. -/
theorem length_dispatchLocalInvoke (service : LocalService) (msg : Message) (host : Host) :
    (host.dispatchLocalInvoke .succeeds context service name msg).1.outcome.response.length ≤
      sizeMax / 4 := by
  unfold dispatchLocalInvoke
  split
  · exact Nat.zero_le _
  rename_i payload _
  split_ifs
  · exact length_dispatchDiagInvoke context name payload.request host
  · exact Nat.zero_le _
  · exact Nat.zero_le _
  · dsimp only
    split_ifs
    · exact Nat.zero_le _
    · exact (service.onInvoke payload.methodId payload.request host).1.length_le

end

/-! ### Which invocations are answered -/

theorem isEntryAlive_of_liveClient {host : Host} {name : Bytes} {entryId : Nat} {clientId : Int}
    (h : host.plane.liveClient name entryId clientId = some conn) :
    host.isEntryAlive name entryId = true := by
  cases hentry : host.plane.localServices[name]? with
  | none =>
    rw [liveClient, hentry] at h
    cases h
  | some entry =>
    rw [liveClient, hentry] at h
    rw [isEntryAlive, hentry]
    by_contra hother
    simp only [if_neg (of_decide_eq_false (Bool.eq_false_iff.mpr hother))] at h
    cases h

section
variable (context : InvokeContext) (service : LocalService) (name : Bytes) (clientId : Int)
  (msg : Message) (host : Host)

/-- The result of the dispatch of an invocation, and the runtime when it returns. -/
def dispatched (entryId : Nat) : InvokeDispatchResult × Host :=
  (host.beforeDispatch .succeeds context entryId msg).dispatchLocalInvoke
    .succeeds context service name msg

/-- The runtime when the diagnostic hook of the reply has returned. -/
def answering (entryId : Nat) : Host :=
  (host.dispatched context service name msg entryId).2.beforeReply .succeeds context
    entryId msg.getSequence (host.dispatched context service name msg entryId).1

/-- The service was registered and the client connected when the handler was called and when it
    returned. -/
structure StaysUntilReturn (entryId conn : Nat) : Prop where
  called : (host.beforeDispatch .succeeds context entryId msg).plane.liveClient name entryId
    clientId = some conn
  returned : (host.dispatched context service name msg entryId).2.plane.liveClient name entryId
    clientId = some conn

variable {context service name clientId msg host}

/-- An invocation that is not abandoned ends with an attempt to send its reply. -/
theorem plane_onInvokeRequest {entry : ServiceEntry}
    (hentry : host.plane.localServices[name]? = some entry)
    (hstays : host.StaysUntilReturn context service name clientId msg entry.id conn) :
    (host.onInvokeRequest .succeeds context service name clientId msg).plane =
      (host.answering context service name msg entry.id).plane.sendInvokeReply .succeeds name
        entry.id clientId msg.getSequence (host.dispatched context service name msg entry.id).1.outcome
        context.replyPlan := by
  have hcalled := isEntryAlive_of_liveClient hstays.called
  have hreturned := isEntryAlive_of_liveClient hstays.returned
  simp only [dispatched] at hreturned
  simp only [onInvokeRequest, hentry, hcalled, hreturned, Bool.not_true, Bool.false_eq_true, if_false,
    answering, dispatched]

/-- The reply is handed to the connection of the client exactly once, as the last thing the invocation
    does. -/
def AnsweredOnce (conn : Nat) (seq : UInt32) (before after : Host) : Prop :=
  ∃ (reply : Message) (sent : Nat), reply.header.type = DataPlane.msgInvokeReply ∧
    reply.getSequence = seq ∧ after.plane.sends conn = before.plane.sends conn ++ [⟨reply.wire, sent⟩] ∧
    ∀ other ≠ conn, after.plane.sends other = before.plane.sends other

end

/-! ### A response that is too large -/

/-- One client that has said hello to service `s`, and no diagnosis. -/
def sample : Host where
  plane := DataPlane.after [.registerService (ascii "s"), .clientAccepted (ascii "s") 7,
    .clientMessage (ascii "s") 7 DataPlane.sampleHello [.wrote 36]]
  diag := ⟨0, false, 0, ∅⟩

def sampleContext : InvokeContext := ⟨0, fun _ => [], fun _ host => host, 0, fun host => ((0, 0), host), []⟩

/-- A service of interface 1 that answers every call with the given result. -/
def answerWith (result : HandlerResult) : LocalService := ⟨⟨1, [], []⟩, fun _ _ host => (result, host)⟩

/-- A call of method 5 of interface 1 without a request. -/
def sampleInvoke : Message :=
  DataPlane.clientMessage DataPlane.msgInvoke
    (encode 4 1 ++ encode 4 0 ++ encode 4 5 ++
      encode 4 0)

/-- The entry of service `s`, with its client and the client's session. -/
theorem sample_entry : ∃ (entry : ServiceEntry) (session : ClientSession),
      sample.plane.localServices[ascii "s"]? = some entry ∧ entry.id = 0 ∧
        entry.clients[(7 : Int)]? = some 0 ∧ entry.clientSessions[(7 : Int)]? = some session ∧
        session.active = true := by
  have hentry : (sample.plane.localServices[ascii "s"]?.map fun entry =>
      (entry.id, entry.clients[(7 : Int)]?,
        entry.clientSessions[(7 : Int)]?.map ClientSession.active)) = some (0, some 0, some true) := by
    decide +kernel
  obtain ⟨entry, hlookup, hfields⟩ := Option.map_eq_some_iff.mp hentry
  obtain ⟨hid, hclient, hsession⟩ : entry.id = 0 ∧ entry.clients[(7 : Int)]? = some 0 ∧
      entry.clientSessions[(7 : Int)]?.map ClientSession.active = some true := by
    simpa using hfields
  obtain ⟨session, hfound, hactive⟩ := Option.map_eq_some_iff.mp hsession
  exact ⟨entry, session, hlookup, hid, hclient, hfound, hactive⟩

theorem sample_live : sample.plane.liveClient (ascii "s") 0 7 = some 0 := by
  decide +kernel

theorem beforeDispatch_sample :
    sample.beforeDispatch .succeeds sampleContext 0 sampleInvoke = sample :=
  rfl

section
variable (result : HandlerResult) (hstatus : result.status = 0) {entryId : Nat} (hid : entryId = 0)
include hstatus hid

/-- The sample call reaches the handler, and nothing else happens. -/
theorem dispatched_sample :
    sample.dispatched sampleContext (answerWith result) (ascii "s") sampleInvoke entryId =
      (⟨.success, 0, result.response⟩, sample) := by
  subst hid
  have hdecode : decodeInvokePayload .succeeds sampleInvoke.payload.bytes =
      some ⟨1, 0, 5, []⟩ := by decide +kernel
  simp only [dispatched, beforeDispatch_sample, dispatchLocalInvoke, hdecode, answerWith, hstatus]
  rfl

theorem answering_sample :
    sample.answering sampleContext (answerWith result) (ascii "s") sampleInvoke entryId = sample := by
  rw [answering, dispatched_sample result hstatus hid, hid]
  rfl

theorem sample_stays :
    sample.StaysUntilReturn sampleContext (answerWith result) (ascii "s") 7 sampleInvoke entryId 0 where
  called := by rw [hid, beforeDispatch_sample, sample_live]
  returned := by rw [dispatched_sample result hstatus hid, hid, sample_live]

end

/-- The shortest response that is too long for a frame. -/
def longResult : HandlerResult where
  status := 0
  response := List.replicate (maxMessageSize - messageHeaderSize - 7) 0
  length_le := by
    rw [List.length_replicate]
    decide

end Host

end OmniBinder
