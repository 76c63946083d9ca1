/-
Module: OmniBinder.Proofs.SendDiscipline
Purpose: What the data plane leaves on its TCP connections.
Trusted boundary: none (fully proved)
Main exports: SocketSend.taken, DataPlane.torn_reply_is_followed
-/
import OmniBinder.Proofs.FrameStream
import OmniBinder.Runtime.DataPlane

namespace OmniBinder

open List Option LittleEndian DataPlane SocketSend

variable {msg : Message}

variable {topicId : UInt32}

/-! ### How much a socket takes -/

/-- The number of bytes a socket is ready to take before it stops a send. -/
def SocketSend.taken (timeoutMs : Nat) : List SocketSend → Nat
  | [] => 0
  | .wrote 0 :: plan | .retry :: plan => if timeoutMs = 0 then 0 else taken timeoutMs plan
  | .wrote (n + 1) :: plan => n + 1 + taken timeoutMs plan
  | .expired :: _ => 0
  | .failed :: _ => 0

/-- A send writes what the socket takes, and succeeds exactly when that is everything. -/
theorem socketSendAll_eq (length timeoutMs : Nat) (plan : List SocketSend) (sent : Nat)
    (hsent : sent ≤ length) : socketSendAll length timeoutMs plan sent =
      (min length (sent + taken timeoutMs plan),
        decide (length ≤ sent + taken timeoutMs plan)) := by
  induction plan generalizing sent with
  | nil =>
    rw [socketSendAll, taken]
    by_cases h : sent < length
    · simp [h, Nat.min_eq_right hsent]
    · have : sent = length := by omega
      simp [this]
  | cons turn plan ih =>
    rw [socketSendAll.eq_def]
    by_cases h : sent < length
    · rw [if_pos h]
      have hstop : (sent, false) = (min length (sent + 0), decide (length ≤ sent + 0)) := by
        simp [h, Nat.min_eq_right hsent]
      cases turn with
      | wrote n =>
        cases n with
        | zero =>
          simp only [taken]
          split
          · exact hstop
          · exact ih sent hsent
        | succ n =>
          simp only [taken]
          rw [ih _ (by omega)]
          have hmin : min length (sent + min (n + 1) (length - sent) +
              taken timeoutMs plan) = min length (sent + (n + 1 + taken timeoutMs plan)) := by omega
          have hdec : (length ≤ sent + min (n + 1) (length - sent) +
              taken timeoutMs plan) ↔
              length ≤ sent + (n + 1 + taken timeoutMs plan) := by omega
          exact Prod.ext hmin (decide_eq_decide.mpr hdec)
      | retry =>
        simp only [taken]
        split
        · exact hstop
        · exact ih sent hsent
      | expired => exact hstop
      | failed => exact hstop
    · have : sent = length := by omega
      simp [this]

/-- The frame is taken whole, or none of it. -/
def SocketSend.WholeOrNothing (length timeoutMs : Nat) (plan : List SocketSend) : Prop :=
  taken timeoutMs plan = 0 ∨ length ≤ taken timeoutMs plan

instance (length timeoutMs : Nat) (plan : List SocketSend) :
    Decidable (SocketSend.WholeOrNothing length timeoutMs plan) :=
  inferInstanceAs (Decidable (_ ∨ _))

/-! ### The runtime as a set of writers -/

/-- Who can write to a TCP connection. -/
inductive ConnOwner where
  | client (name : Bytes) (clientId : Int)
  | direct (key : Bytes)
deriving DecidableEq

namespace DataPlane

def holder (st : DataPlane) : ConnOwner → Option Nat
  | .client name clientId => st.clientConnection name clientId
  | .direct key => st.connections[key]?.map ServiceConnection.conn

def writers (st : DataPlane) : Writers ConnOwner UInt8 := ⟨st.holder, st.sends, st.nextConnection⟩

/-- A frame is the wire form of a message that fits. -/
def IsWire (frame : Bytes) : Prop := ∃ m : Message, m.Fits ∧ frame = m.wire

/-- The clients that pending broadcasts still have to disconnect. -/
def pendingBroken (calls : List PendingCall) : List (Bytes × Int) :=
  calls.flatMap fun call =>
    match call with
    | .disconnectBroken broken => broken
    | _ => []

/-- The owners among some clients. -/
def Waiting (broken : List (Bytes × Int)) (owner : ConnOwner) : Prop :=
  ∃ client ∈ broken, owner = .client client.1 client.2

variable {alloc : Allocator} {st st' : DataPlane} {name : Bytes} {clientId : Int} {conn timeoutMs : Nat}
  {entry : ServiceEntry} {frame : Bytes} {plan : List SocketSend} {calls : List PendingCall}
  {broken : List (Bytes × Int)}

theorem waiting_client :
    Waiting broken (.client name clientId) ↔ (name, clientId) ∈ broken := by
  constructor
  · rintro ⟨⟨name', clientId'⟩, hmem, heq⟩
    cases heq
    exact hmem
  · intro hmem
    exact ⟨(name, clientId), hmem, rfl⟩

theorem not_waiting_direct {key : Bytes} : ¬ Waiting broken (.direct key) := by
  rintro ⟨_, _, heq⟩
  cases heq

theorem Waiting.mono {broken' : List (Bytes × Int)} {owner : ConnOwner}
    (h : Waiting broken owner) (hsub : broken ⊆ broken') : Waiting broken' owner := by
  obtain ⟨client, hmem, heq⟩ := h
  exact ⟨client, hsub hmem, heq⟩

/-- The discipline of the runtime while some calls are pending and some clients wait to be
    disconnected. A client subscribes to a topic at most once, so a broadcast reaches it once. -/
structure Disciplined (st : DataPlane) (calls : List PendingCall) (broken : List (Bytes × Int)) :
    Prop where
  streams : st.writers.Disciplined IsWire (Waiting broken)
  calls : st.pendingCalls = calls
  subscribers : ∀ topicId, (st.tcpSubscribers topicId).Nodup

theorem disciplined_init (incarnationId dataMaxSessionTimeoutMs : UInt32) :
    (init incarnationId dataMaxSessionTimeoutMs).Disciplined [] [] := by
  have hnone : ∀ owner conn, (init incarnationId dataMaxSessionTimeoutMs).holder owner ≠ some conn := by
    intro owner conn
    cases owner with
    | client name clientId => simp [holder, clientConnection, init]
    | direct key => simp [holder, init]
  have hsends : ∀ conn, (init incarnationId dataMaxSessionTimeoutMs).sends conn = [] := by
    intro conn
    simp [sends, init]
  refine ⟨⟨fun owner conn h => absurd h (hnone owner conn), fun conn _ => hsends conn,
    fun owner _ conn h => absurd h (hnone owner conn), fun conn => ?_,
    fun owner conn h => absurd h (hnone owner conn)⟩, rfl, fun topicId => ?_⟩
  · rw [show (init _ _).writers.sends conn = [] from hsends conn]
    exact Framed.nil
  · simp [tcpSubscribers, init]

/-! ### Losing and opening connections -/

theorem clientConnection_insert (st : DataPlane)
    (h : st'.localServices = st.localServices.insert name entry) (name' : Bytes) (clientId : Int) :
    st'.clientConnection name' clientId =
      if name = name' then entry.clients[clientId]? else st.clientConnection name' clientId := by
  unfold clientConnection
  rw [h, Table.getElem?_insert]
  split <;> rfl

theorem clientConnection_erase (st : DataPlane)
    (h : st'.localServices = st.localServices.erase name) (name' : Bytes) (clientId : Int) :
    st'.clientConnection name' clientId =
      if name = name' then none else st.clientConnection name' clientId := by
  unfold clientConnection
  rw [h, Table.getElem?_erase]
  split <;> rfl

theorem clientConnection_eq
    (h : st.localServices[name]? = some entry) (clientId : Int) :
    st.clientConnection name clientId = entry.clients[clientId]? := by
  rw [clientConnection, h, bind_some]

/-- Connections and subscriptions may be lost, and nothing else happens that the discipline is about. -/
structure Loses (st st' : DataPlane) : Prop where
  writers : st.writers.Shrinks st'.writers
  calls : st'.pendingCalls = st.pendingCalls
  subscribers : ∀ topicId, (st'.tcpSubscribers topicId).Sublist (st.tcpSubscribers topicId)

theorem Loses.refl (st : DataPlane) : st.Loses st :=
  ⟨Writers.Shrinks.refl _, rfl, fun _ => List.Sublist.refl _⟩

theorem Loses.trans {st st' st'' : DataPlane} (h : st.Loses st') (h' : st'.Loses st'') :
    st.Loses st'' :=
  ⟨h.writers.trans h'.writers, h'.calls.trans h.calls,
    fun topicId => (h'.subscribers topicId).trans (h.subscribers topicId)⟩

/-- A change to the clients of services loses connections if no client gets another one. -/
theorem loses_of_clients (hwritten : st'.written = st.written)
    (hnext : st'.nextConnection = st.nextConnection) (hconn : st'.connections = st.connections)
    (hcalls : st'.pendingCalls = st.pendingCalls) (htopics : st'.topics = st.topics)
    (hclients : ∀ name clientId conn, st'.clientConnection name clientId = some conn →
      st.clientConnection name clientId = some conn) : st.Loses st' := by
  refine ⟨⟨?_, ?_, hnext⟩, hcalls, ?_⟩
  · intro owner conn h
    cases owner with
    | client name clientId => exact hclients name clientId conn h
    | direct key =>
      simp only [writers, holder, hconn] at h ⊢
      exact h
  · funext conn
    simp only [writers, sends, hwritten]
  · intro topicId
    rw [tcpSubscribers, htopics]
    exact List.Sublist.refl _

/-- An entry is replaced by one without other clients. -/
theorem loses_of_entry
    (hservices : st'.localServices = st.localServices.insert name entry) (hwritten : st'.written = st.written)
    (hnext : st'.nextConnection = st.nextConnection) (hconn : st'.connections = st.connections)
    (hcalls : st'.pendingCalls = st.pendingCalls) (htopics : st'.topics = st.topics)
    (hclients : ∀ clientId conn, entry.clients[clientId]? = some conn →
      st.clientConnection name clientId = some conn) : st.Loses st' := by
  refine loses_of_clients hwritten hnext hconn hcalls htopics fun name' clientId conn h => ?_
  rw [clientConnection_insert st hservices] at h
  split at h
  · next hname => exact hname ▸ hclients clientId conn h
  · exact h

section
variable (st)

theorem loses_updateTopics {update : UInt32 → TopicState → TopicState}
    (h : ∀ topicId topic, (update topicId topic).tcpSubscribers.Sublist topic.tcpSubscribers) :
    st.Loses (st.updateTopics update) := by
  refine ⟨Writers.Shrinks.refl _, rfl, ?_⟩
  intro topicId
  simp only [tcpSubscribers, updateTopics, Std.TreeMap.getElem?_map, Option.map_map]
  cases st.topics[topicId]? with
  | none => exact List.Sublist.refl _
  | some topic => exact h topicId topic

theorem loses_removeTcpSubscriberFd (clientId : Int) : st.Loses (st.removeTcpSubscriberFd clientId) :=
  loses_updateTopics st fun _ _ => filter_sublist

theorem loses_removeTcpSubscriber (topicId : UInt32) (clientId : Int) :
    st.Loses (st.removeTcpSubscriber topicId clientId) := by
  apply loses_updateTopics
  intro topicId' topic
  split
  · exact filter_sublist
  · exact List.Sublist.refl _

theorem loses_forgetPublishedTopicsByOwner (name : Bytes) :
    st.Loses (st.forgetPublishedTopicsByOwner name) := by
  apply loses_updateTopics
  intro topicId topic
  split
  · exact nil_sublist _
  · exact List.Sublist.refl _

/-- The routing of a client may be forgotten at any time. -/
theorem loses_route (routes : Table Int Bytes) :
    st.Loses { st with clientIdToService := routes } :=
  ⟨Writers.Shrinks.refl _, rfl, fun _ => List.Sublist.refl _⟩

theorem loses_detachClientsFromEntry (entry : ServiceEntry) :
    st.Loses (st.detachClientsFromEntry entry) := by
  unfold detachClientsFromEntry
  generalize entry.clients.toList = clients
  induction clients generalizing st with
  | nil => exact Loses.refl st
  | cons client clients ih =>
    rw [foldl_cons]
    exact ((loses_route st _).trans (loses_removeTcpSubscriberFd _ client.1)).trans (ih _)

theorem loses_registerService (name : Bytes) : st.Loses (st.registerService name) := by
  unfold registerService
  split
  · exact Loses.refl st
  exact loses_of_entry rfl rfl rfl rfl rfl rfl (by simp)

theorem loses_unregisterService (name : Bytes) : st.Loses (st.unregisterService name) := by
  unfold unregisterService
  split
  · exact Loses.refl st
  rename_i entry _
  have herase : st.Loses { st with localServices := st.localServices.erase name } := by
    refine loses_of_clients rfl rfl rfl rfl rfl ?_
    intro name' clientId conn h
    rw [clientConnection_erase st rfl] at h
    split at h
    · cases h
    · exact h
  exact (herase.trans (loses_detachClientsFromEntry _ entry)).trans
    (loses_forgetPublishedTopicsByOwner _ name)

end

theorem loses_setSession
    (h : st.localServices[name]? = some entry) (clientId : Int) (session : ClientSession)
    (runtimeSessions : Table Bytes Int) :
    st.Loses (st.setSession name entry clientId session runtimeSessions) := by
  refine loses_of_entry rfl rfl rfl rfl rfl rfl fun clientId' conn hconn => ?_
  rwa [clientConnection_eq h]

/-- A client that is disconnected is gone, and nobody else is touched. -/
theorem clientConnection_onServiceClientDisconnected (st : DataPlane) (name : Bytes)
    (clientId : Int) (name' : Bytes) (clientId' : Int) :
    (st.onServiceClientDisconnected name clientId).clientConnection name' clientId' =
      if name = name' ∧ clientId = clientId' then none else st.clientConnection name' clientId' := by
  unfold onServiceClientDisconnected
  split
  · rename_i hnone
    split
    · rename_i heq
      rw [clientConnection, ← heq.1, hnone, bind_none]
    · rfl
  · rename_i entry hentry
    split
    · rename_i hnone
      show st.clientConnection name' clientId' = _
      split
      · rename_i heq
        rw [← heq.1, ← heq.2, clientConnection_eq hentry, hnone]
      · rfl
    · refine (clientConnection_insert st rfl name' clientId').trans ?_
      by_cases hname : name = name'
      · rw [if_pos hname, Table.getElem?_erase, ← hname, clientConnection_eq hentry]
        simp only [true_and]
      · rw [if_neg hname, if_neg fun h => hname h.1]

theorem loses_onServiceClientDisconnected (st : DataPlane) (name : Bytes) (clientId : Int) :
    st.Loses (st.onServiceClientDisconnected name clientId) := by
  unfold onServiceClientDisconnected
  split
  · exact loses_route st _
  rename_i entry hentry
  split
  · exact loses_route st _
  refine Loses.trans ?_ (loses_removeTcpSubscriberFd _ clientId)
  refine loses_of_entry rfl rfl rfl rfl rfl rfl fun clientId' conn h => ?_
  rw [clientConnection_eq hentry]
  exact (Table.of_erase h).2

theorem Disciplined.lose (h : st.Disciplined calls broken) (hl : st.Loses st') :
    st'.Disciplined calls broken :=
  ⟨h.streams.shrink hl.writers fun _ _ hm => hm, hl.calls.trans h.calls,
    fun topicId => (h.subscribers topicId).sublist (hl.subscribers topicId)⟩

/-- The discipline no longer needs to remember a client once it is disconnected. -/
theorem Disciplined.disconnected
    (h : st.Disciplined calls ((name, clientId) :: broken)) :
    (st.onServiceClientDisconnected name clientId).Disciplined calls broken := by
  have hl := loses_onServiceClientDisconnected st name clientId
  refine ⟨h.streams.shrink hl.writers ?_, (h.lose hl).calls, (h.lose hl).subscribers⟩
  rintro owner hholds ⟨client, hmem, rfl⟩
  rcases mem_cons.mp hmem with rfl | hmem
  · simp [writers, holder, clientConnection_onServiceClientDisconnected] at hholds
  · exact ⟨client, hmem, rfl⟩

theorem Disciplined.onServiceClientAccepted (h : st.Disciplined calls broken) (name : Bytes)
    (clientId : Int) : (st.onServiceClientAccepted name clientId).Disciplined calls broken := by
  unfold DataPlane.onServiceClientAccepted
  split
  · exact h
  rename_i entry hentry
  refine ⟨?_, h.calls, h.subscribers⟩
  apply Writers.Disciplined.opened (o := ConnOwner.client name clientId) h.streams
  refine ⟨?_, rfl, rfl⟩
  intro owner conn hheld
  cases owner with
  | client name' clientId' =>
    simp only [writers, holder] at hheld ⊢
    rw [clientConnection_insert st rfl] at hheld
    split at hheld
    · rename_i hname
      subst hname
      rcases Table.of_insert hheld with ⟨rfl, rfl⟩ | ⟨-, hheld⟩
      · exact .inl ⟨rfl, rfl⟩
      · rw [clientConnection_eq hentry]
        exact .inr hheld
    · exact .inr hheld
  | direct key => exact .inr hheld

theorem holder_direct_insert (st : DataPlane) {key : Bytes} {connection : ServiceConnection}
    (h : st'.connections = st.connections.insert key connection) (key' : Bytes) :
    st'.holder (.direct key') =
      if key = key' then some connection.conn else st.holder (.direct key') := by
  simp only [holder, h, Table.getElem?_insert]
  split <;> rfl

theorem holder_removeConnection (st : DataPlane) (key key' : Bytes) :
    (st.removeConnection key).holder (.direct key') =
      if key = key' then none else st.holder (.direct key') := by
  simp only [holder, removeConnection, Table.getElem?_erase]
  split <;> rfl

theorem loses_removeConnection (st : DataPlane) (key : Bytes) : st.Loses (st.removeConnection key) := by
  refine ⟨⟨?_, rfl, rfl⟩, rfl, fun _ => List.Sublist.refl _⟩
  intro owner conn h
  cases owner with
  | client name clientId => exact h
  | direct key' =>
    simp only [writers, holder_removeConnection] at h ⊢
    split at h
    · cases h
    · exact h

theorem Disciplined.openConnection (h : st.Disciplined calls broken) (key : Bytes)
    (endpoint : Endpoint) (opened : Bool) :
    (st.openConnection key endpoint opened).Disciplined calls broken := by
  cases opened with
  | false => exact h
  | true =>
    refine ⟨?_, h.calls, h.subscribers⟩
    apply Writers.Disciplined.opened (o := ConnOwner.direct key) h.streams
    refine ⟨?_, rfl, rfl⟩
    intro owner conn hheld
    cases owner with
    | client name clientId => exact .inr hheld
    | direct key' =>
      simp only [writers] at hheld ⊢
      rw [holder_direct_insert st rfl] at hheld
      split at hheld
      · rename_i hkey
        subst hkey
        exact .inl ⟨rfl, (Option.some.inj hheld).symm⟩
      · exact .inr hheld

theorem Disciplined.getOrCreateConnectionByKey (h : st.Disciplined calls broken) (key : Bytes)
    (endpoint : Endpoint) (opened : Bool) :
    (st.getOrCreateConnectionByKey key endpoint opened).Disciplined calls broken := by
  unfold DataPlane.getOrCreateConnectionByKey
  split
  · split
    · exact h
    · exact (h.lose (loses_removeConnection st key)).openConnection key endpoint opened
  · exact h.openConnection key endpoint opened

theorem clientConnection_of_liveClient {entryId : Nat}
    (h : st.liveClient name entryId clientId = some conn) :
    st.clientConnection name clientId = some conn := by
  unfold liveClient at h
  split at h
  · cases h
  · rename_i entry hentry
    split at h
    · rw [clientConnection_eq hentry, h]
    · cases h

/-! ### Writing -/

theorem writes_sendAll (st : DataPlane) (conn : Nat) (frame : Bytes) (timeoutMs : Nat)
    (plan : List SocketSend) :
    st.writers.Writes conn ⟨frame, (socketSendAll frame.length timeoutMs plan 0).1⟩
      (st.sendAll conn frame timeoutMs plan).2.writers := by
  refine ⟨rfl, ?_, rfl⟩
  intro conn'
  simp only [writers, sends, sendAll, Table.getElem?_insert]
  by_cases h : conn = conn'
  · rw [if_pos h, if_pos h.symm, getD_some]
  · rw [if_neg h, if_neg fun h' => h h'.symm]

section
variable (owner : ConnOwner) (h : st.Disciplined calls broken) (ho : st.holder owner = some conn)
  (hwait : ¬ Waiting broken owner) (hframe : IsWire frame)
include h ho hwait hframe

/-- A frame that is not cut short leaves the discipline as it was. -/
theorem Disciplined.sendAll_uncut (hwhole : SocketSend.WholeOrNothing frame.length timeoutMs plan) :
    (st.sendAll conn frame timeoutMs plan).2.Disciplined calls broken := by
  have hsend := h.streams.write (writes_sendAll st conn frame timeoutMs plan) ho hwait hframe
  refine ⟨hsend.mono ?_, h.calls, h.subscribers⟩
  rintro owner' (hmark | ⟨_, hcut⟩)
  · exact hmark
  exfalso
  obtain ⟨hpos, hlt⟩ := hcut
  rw [socketSendAll_eq _ _ _ _ (Nat.zero_le _)] at hpos hlt
  simp only [Nat.zero_add] at hpos hlt
  rcases hwhole with hnone | hall
  · rw [hnone] at hpos
    exact absurd hpos (by simp)
  · rw [Nat.min_eq_left hall] at hlt
    exact absurd hlt (Nat.lt_irrefl _)

theorem Disciplined.sendAll_complete (hsend : st.sendAll conn frame timeoutMs plan = (true, st')) :
    st'.Disciplined calls broken := by
  have hok := congrArg Prod.fst hsend
  simp only [sendAll, socketSendAll_eq _ _ _ _ (Nat.zero_le _), Nat.zero_add] at hok
  have hsent := h.sendAll_uncut owner ho hwait hframe (.inr (of_decide_eq_true hok))
  rwa [hsend] at hsent

end

/-- A frame of a client may be cut short if the client is disconnected later. -/
theorem Disciplined.sendAll_client (h : st.Disciplined calls broken)
    (ho : st.clientConnection name clientId = some conn) (hwait : (name, clientId) ∉ broken)
    (hframe : IsWire frame) {ok : Bool} (hsend : st.sendAll conn frame timeoutMs plan = (ok, st')) :
    st'.Disciplined calls ((name, clientId) :: broken) := by
  have hst' : (st.sendAll conn frame timeoutMs plan).2 = st' := by rw [hsend]
  subst hst'
  have hsent := Writers.Disciplined.write (o := ConnOwner.client name clientId) h.streams
    (writes_sendAll st conn frame timeoutMs plan) ho (fun hm => hwait (waiting_client.mp hm)) hframe
  refine ⟨hsent.mono ?_, h.calls, h.subscribers⟩
  rintro owner' (hmark | ⟨rfl, _⟩)
  · exact hmark.mono (subset_cons_self _ _)
  · exact waiting_client.mpr mem_cons_self

theorem isWire_of_serializeInPlace {msg msg' : Message}
    (h : msg.serializeInPlace alloc = (true, msg')) : IsWire msg'.payload.bytes ∧
      msg'.payload.bytes.length = messageHeaderSize + msg.payload.size := by
  obtain ⟨hfits, hbytes⟩ := Message.serializeInPlace_ok h
  exact ⟨⟨msg, hfits, hbytes⟩, by rw [hbytes, Message.length_wire]⟩

section
variable (h : st.Disciplined calls broken) (ho : st.clientConnection name clientId = some conn)
  (hwait : (name, clientId) ∉ broken)
include h ho hwait

theorem Disciplined.sendWithBudget_uncut
    (hwhole : SocketSend.WholeOrNothing (messageHeaderSize + msg.payload.size) timeoutMs plan) :
    (st.sendWithBudget alloc conn msg timeoutMs plan).2.Disciplined calls broken := by
  unfold sendWithBudget
  split
  · exact h
  rename_i msg' hser
  obtain ⟨hwire, hlength⟩ := isWire_of_serializeInPlace hser
  refine h.sendAll_uncut (.client name clientId) ho
    (fun hm => hwait (waiting_client.mp hm)) hwire ?_
  rw [hlength]
  exact hwhole

/-- A message to a client that is disconnected unless all of it was sent. -/
theorem Disciplined.sendOnFd_or_close
    (msg : Message) (plan : List SocketSend) {ok : Bool}
    (hsend : st.sendOnFd alloc conn msg plan = (ok, st')) :
    (if ok then st' else st'.closeClientSession name clientId).Disciplined calls broken := by
  unfold sendOnFd sendWithBudget at hsend
  split at hsend
  · cases hsend
    exact h.lose (loses_onServiceClientDisconnected st name clientId)
  rename_i msg' hser
  have hwire := (isWire_of_serializeInPlace hser).1
  cases ok with
  | true =>
    exact h.sendAll_complete (.client name clientId) ho (fun hm => hwait (waiting_client.mp hm)) hwire
      hsend
  | false => exact (h.sendAll_client ho hwait hwire hsend).disconnected

end

section
variable (h : st.Disciplined calls broken) (hwait : (name, clientId) ∉ broken) (hello : SessionHello)
  (seq : UInt32) (plan : List SocketSend)
include h hwait

theorem Disciplined.sendHelloAck :
    (st.sendHelloAck alloc name clientId hello seq plan).Disciplined calls broken := by
  unfold DataPlane.sendHelloAck
  split
  · exact h
  rename_i conn hconn
  dsimp only
  split
  · split
    · rename_i st' hsend
      exact h.sendOnFd_or_close hconn hwait _ _ hsend
    · rename_i st' hsend
      exact h.sendOnFd_or_close hconn hwait _ _ hsend
  · exact h.lose (loses_onServiceClientDisconnected st name clientId)

theorem Disciplined.activateSession :
    (st.activateSession alloc name clientId hello seq plan).Disciplined calls broken := by
  unfold DataPlane.activateSession
  split
  · exact h
  · rename_i entry hentry
    split
    · exact h
    · exact (h.lose (loses_setSession hentry _ _ _)).sendHelloAck hwait hello seq plan

end

/-! ### Pending calls -/

/-- The invariant between events: only clients that a pending broadcast will disconnect may have a
    frame cut short. -/
def Sound (st : DataPlane) : Prop := st.Disciplined st.pendingCalls (pendingBroken st.pendingCalls)

theorem Disciplined.sound (h : st.Disciplined calls (pendingBroken calls)) : st.Sound := by
  unfold Sound
  rw [h.calls]
  exact h

theorem Disciplined.more_broken {broken' : List (Bytes × Int)} (h : st.Disciplined calls broken)
    (hsub : broken ⊆ broken') : st.Disciplined calls broken' :=
  ⟨h.streams.mono fun _ hm => hm.mono hsub, h.calls, h.subscribers⟩

theorem Disciplined.suspend (h : st.Disciplined calls broken) (call : PendingCall) :
    (st.suspend call).Disciplined (call :: calls) broken :=
  ⟨h.streams, congrArg (call :: ·) h.calls, h.subscribers⟩

theorem Sound.suspended (h : st.Sound) (call : PendingCall) : (st.suspend call).Sound :=
  ((Disciplined.suspend h call).more_broken fun _ hm => mem_append_right _ hm).sound

/-- The first broken client is disconnected, the others wait in a pending call. -/
theorem Disciplined.disconnectBroken {clients : List (Bytes × Int)}
    (h : st.Disciplined calls (clients ++ pendingBroken calls)) :
    (st.disconnectBroken clients).Sound := by
  cases clients with
  | nil => exact h.sound
  | cons client rest =>
    have hgone := Disciplined.disconnected h
    exact (hgone.suspend (.disconnectBroken rest)).sound

/-- One subscriber of a broadcast, provided it is not waiting to be disconnected. -/
theorem Disciplined.broadcastToClient (topicId : UInt32)
    (plans : Int → List SocketSend) {cut : List (Bytes × Int)}
    (h : st.Disciplined calls (cut ++ broken)) (hframe : IsWire frame)
    (hwait : ∀ name, st.clientIdToService[clientId]? = some name → (name, clientId) ∉ cut ++ broken) :
    ∃ st' cut', DataPlane.broadcastToClient frame topicId plans (st, cut) clientId = (st', cut') ∧
      st'.Disciplined calls (cut' ++ broken) ∧ st'.clientIdToService = st.clientIdToService ∧
      ∀ client ∈ cut', client ∈ cut ∨ client.2 = clientId := by
  unfold DataPlane.broadcastToClient
  dsimp only
  split
  · exact ⟨_, cut, rfl, h.lose (loses_removeTcpSubscriber st topicId clientId), rfl,
      fun _ hm => .inl hm⟩
  rename_i name hname
  split
  · exact ⟨_, cut, rfl, h.lose (loses_removeTcpSubscriber st topicId clientId), rfl,
      fun _ hm => .inl hm⟩
  rename_i conn hconn
  have hfree := hwait name hname
  split
  · rename_i st' hsend
    exact ⟨st', cut, rfl, h.sendAll_complete (.client name clientId) hconn
      (fun hm => hfree (waiting_client.mp hm)) hframe hsend,
      congrArg (·.2.clientIdToService) hsend.symm, fun _ hm => .inl hm⟩
  · rename_i st' hsend
    refine ⟨st', cut ++ [(name, clientId)], rfl,
      (h.sendAll_client hconn hfree hframe hsend).more_broken ?_,
      congrArg (·.2.clientIdToService) hsend.symm, ?_⟩
    · intro client hm
      simp only [mem_cons, mem_append] at hm ⊢
      tauto
    · intro client hm
      rcases mem_append.mp hm with hm | hm
      · exact .inl hm
      · rw [mem_singleton.mp hm]
        exact .inr rfl

/-- The loop of a broadcast. No client occurs twice, so one that was cut short in this loop is not
    reached again. -/
theorem Disciplined.broadcastLoop {plans : Int → List SocketSend}
    (hframe : IsWire frame) (clients : List Int) (st : DataPlane) (cut : List (Bytes × Int))
    (h : st.Disciplined calls (cut ++ broken)) (hnodup : clients.Nodup)
    (hwait : ∀ clientId ∈ clients, ∀ name, st.clientIdToService[clientId]? = some name →
      (name, clientId) ∉ cut ++ broken) :
    let result := clients.foldl (DataPlane.broadcastToClient frame topicId plans) (st, cut)
    result.1.Disciplined calls (result.2 ++ broken) := by
  induction clients generalizing st cut with
  | nil => exact h
  | cons clientId clients ih =>
    obtain ⟨hnew, hnodup⟩ := nodup_cons.mp hnodup
    obtain ⟨st', cut', hstep, hst', hroutes, hcut⟩ :=
      h.broadcastToClient topicId plans hframe (hwait clientId mem_cons_self)
    simp only [foldl_cons, hstep]
    refine ih st' cut' hst' hnodup ?_
    intro other hother name hname hmem
    rw [hroutes] at hname
    have hfree := hwait other (mem_cons_of_mem _ hother) name hname
    rcases mem_append.mp hmem with hmem | hmem
    · rcases hcut _ hmem with hold | hsame
      · exact hfree (mem_append_left _ hold)
      · exact hnew (hsame ▸ hother)
    · exact hfree (mem_append_right _ hmem)

/-! ### Steps and runs -/

/-- The condition on the end of an interrupted call. -/
def CarefulResume (alloc : Allocator) (timeoutMs : Nat) (outcome : InvokeOutcome)
    (plan : List SocketSend) (calls : List PendingCall) : PendingCall → Prop
  | .invokeReply name _ clientId seq =>
    (name, clientId) ∉ pendingBroken calls ∧
      SocketSend.WholeOrNothing
        (messageHeaderSize + (makeInvokeReply alloc seq outcome).payload.size) timeoutMs plan
  | .sessionHello name clientId _ _ => (name, clientId) ∉ pendingBroken calls
  | .disconnectBroken _ => True
  | .subscribeBroadcast _ _ _ _ => True

instance (alloc : Allocator) (timeoutMs : Nat) (outcome : InvokeOutcome) (plan : List SocketSend)
    (calls : List PendingCall) (call : PendingCall) :
    Decidable (CarefulResume alloc timeoutMs outcome plan calls call) := by
  unfold CarefulResume
  split <;> infer_instance

/-- The condition on one event in the state before it. A reply to an invocation and a heartbeat
    acknowledgement are taken whole by the socket or not at all, and nothing is sent to a client that
    waits to be disconnected after a broadcast. -/
def Careful (alloc : Allocator) (st : DataPlane) : DataPlaneEvent → Prop
  | .clientMessage name clientId msg plan =>
    (name, clientId) ∉ pendingBroken st.pendingCalls ∧
      (msg.header.type = msgHeartbeat →
        SocketSend.WholeOrNothing
          (messageHeaderSize + (st.heartbeatAck alloc msg.getSequence).payload.size) 0 plan)
  | .broadcast topicId _ _ =>
    ∀ clientId ∈ st.tcpSubscribers topicId, ∀ name ∈ st.clientIdToService[clientId]?,
      (name, clientId) ∉ pendingBroken st.pendingCalls
  | .resume outcome plan =>
    match st.pendingCalls with
    | [] => True
    | call :: calls => CarefulResume alloc st.replySendTimeoutMs outcome plan calls call
  | _ => True

instance (alloc : Allocator) (st : DataPlane) (event : DataPlaneEvent) :
    Decidable (Careful alloc st event) := by
  unfold Careful
  split
  · infer_instance
  · infer_instance
  · split <;> infer_instance
  · infer_instance

/-- Every event of a run meets the condition in the state it finds. -/
def CarefulRun (alloc : Allocator) : DataPlane → List DataPlaneEvent → Prop
  | _, [] => True
  | st, event :: events => Careful alloc st event ∧ CarefulRun alloc (st.step alloc event) events

instance decidableCarefulRun (alloc : Allocator) :
    (st : DataPlane) → (events : List DataPlaneEvent) → Decidable (CarefulRun alloc st events)
  | _, [] => inferInstanceAs (Decidable True)
  | st, event :: events =>
    have := decidableCarefulRun alloc (st.step alloc event) events
    inferInstanceAs (Decidable (_ ∧ _))


theorem Sound.closed (h : st.Sound) (name : Bytes) (clientId : Int) :
    (st.closeClientSession name clientId).Sound :=
  (h.lose (loses_onServiceClientDisconnected st name clientId)).sound

theorem Sound.onSessionHello (h : st.Sound)
    (hentry : st.localServices[name]? = some entry)
    (hwait : (name, clientId) ∉ pendingBroken st.pendingCalls) (session : ClientSession)
    (msg : Message) (plan : List SocketSend) :
    (st.onSessionHello alloc name clientId entry session msg plan).Sound := by
  unfold DataPlane.onSessionHello
  split
  · exact h.closed name clientId
  rename_i hello _
  split
  · exact h.closed name clientId
  split
  · split
    · exact h.closed name clientId
    · exact ((h.lose (loses_setSession hentry _ _ _)).sendHelloAck hwait hello _ plan).sound
  · split
    · rename_i old _
      -- the older session goes first, and the hello waits for its callback
      have hold := h.lose (loses_onServiceClientDisconnected st name old)
      exact (hold.suspend (.sessionHello name clientId hello msg.getSequence)).sound
    · exact (h.activateSession hwait hello _ plan).sound

theorem Sound.onHeartbeat (h : st.Sound)
    (hconn : st.clientConnection name clientId = some conn)
    (hwait : (name, clientId) ∉ pendingBroken st.pendingCalls) (session : ClientSession)
    (hwhole : SocketSend.WholeOrNothing
      (messageHeaderSize + (st.heartbeatAck alloc msg.getSequence).payload.size) 0 plan) :
    (st.onHeartbeat alloc name clientId conn session msg plan).Sound := by
  unfold DataPlane.onHeartbeat
  split
  · exact h.closed name clientId
  split
  · exact h.closed name clientId
  · split
    · exact h.closed name clientId
    · exact (h.sendWithBudget_uncut hconn hwait hwhole).sound

theorem Sound.clientMessage (h : st.Sound)
    (hcare : Careful alloc st (.clientMessage name clientId msg plan)) :
    (st.handleServiceClientMessage alloc name clientId msg plan).Sound := by
  obtain ⟨hwait, hack⟩ := hcare
  unfold handleServiceClientMessage
  split
  · exact h
  rename_i entry hentry
  split
  · exact h
  rename_i conn hconn
  split
  · exact h.closed name clientId
  rename_i session _
  split
  · exact h.closed name clientId
  split
  · exact h.onSessionHello hentry hwait session msg plan
  split
  · rename_i htype
    rw [← clientConnection_eq hentry] at hconn
    exact h.onHeartbeat hconn hwait session (hack htype)
  · split
    · exact h.suspended _
    split
    · split
      · exact h
      · exact h.suspended _
    · exact h

theorem Sound.broadcast (h : st.Sound) {data : Bytes}
    {plans : Int → List SocketSend} (hcare : Careful alloc st (.broadcast topicId data plans)) :
    (st.broadcastInternal alloc topicId data plans).Sound := by
  unfold broadcastInternal
  split
  · exact h
  rename_i sendBuf hser
  have hframe : IsWire sendBuf.bytes := by
    obtain ⟨hfits, hbytes⟩ := (Message.puts_serialize _ _).stores hser
    exact ⟨_, hfits, hbytes⟩
  refine (Disciplined.broadcastLoop hframe _ st [] h ?_ ?_).disconnectBroken
  · exact (reverse_perm _).nodup_iff.mpr (h.subscribers topicId)
  · intro clientId hmem name hname
    exact hcare clientId (mem_reverse.mp hmem) name hname

theorem tcpSubscribers_insert (st : DataPlane)
    {topic : TopicState} (h : st'.topics = st.topics.insert topicId topic) (topicId' : UInt32) :
    st'.tcpSubscribers topicId' =
      if topicId = topicId' then topic.tcpSubscribers else st.tcpSubscribers topicId' := by
  simp only [tcpSubscribers, h, Table.getElem?_insert]
  split <;> rfl

/-- A topic may be replaced as long as nobody subscribes to it twice. -/
theorem Disciplined.setTopic (h : st.Disciplined calls broken) (topicId : UInt32) {topic : TopicState}
    (hnodup : topic.tcpSubscribers.Nodup) :
    { st with topics := st.topics.insert topicId topic }.Disciplined calls broken := by
  refine ⟨h.streams, h.calls, ?_⟩
  intro topicId'
  rw [tcpSubscribers_insert st rfl]
  split
  · exact hnodup
  · exact h.subscribers topicId'

theorem Disciplined.addTcpSubscriber (h : st.Disciplined calls broken) (topicId : UInt32) (clientId : Int) :
    (st.addTcpSubscriber topicId clientId).Disciplined calls broken := by
  have hnodup : (st.topics[topicId]?.getD ⟨none, []⟩).tcpSubscribers.Nodup := by
    have hsubs := h.subscribers topicId
    unfold tcpSubscribers at hsubs
    cases htopic : st.topics[topicId]? with
    | none => exact nodup_nil
    | some topic =>
      rw [htopic] at hsubs
      exact hsubs
  unfold DataPlane.addTcpSubscriber
  dsimp only
  split
  · exact h.setTopic topicId hnodup
  · rename_i hnew
    apply h.setTopic topicId
    exact nodup_append.mpr ⟨hnodup, pairwise_singleton _ _, fun a ha b hb heq =>
      hnew (mem_singleton.mp hb ▸ heq ▸ ha)⟩

theorem Sound.resume (h : st.Sound) {outcome : InvokeOutcome}
    (hcare : Careful alloc st (.resume outcome plan)) : (st.resume alloc outcome plan).Sound := by
  unfold DataPlane.resume
  unfold Careful at hcare
  split
  · exact h
  rename_i call calls hcalls
  unfold Sound at h
  simp only [hcalls] at h hcare
  have hpopped : { st with pendingCalls := calls }.Disciplined calls
      (pendingBroken (call :: calls)) := ⟨h.streams, rfl, h.subscribers⟩
  cases call with
  | disconnectBroken broken => exact Disciplined.disconnectBroken hpopped
  | invokeReply name entryId clientId seq =>
    dsimp only
    unfold sendInvokeReply
    split
    · exact hpopped.sound
    · rename_i conn hlive
      have hconn := clientConnection_of_liveClient hlive
      exact (hpopped.sendWithBudget_uncut hconn hcare.1 hcare.2).sound
  | sessionHello name clientId hello seq =>
    exact (hpopped.activateSession hcare hello seq plan).sound
  | subscribeBroadcast name entryId clientId topicId =>
    dsimp only
    split
    · exact hpopped.sound
    · exact (hpopped.addTcpSubscriber topicId clientId).sound

/-- A direct connection that is cut short is given up, and with it the mark. -/
theorem Sound.sendMessage (h : st.Sound) (key : Bytes) (msg : Message) (timeoutMs : Nat)
    (plan : List SocketSend) : (st.sendMessageWithinTimeout alloc key msg timeoutMs plan).Sound := by
  unfold sendMessageWithinTimeout
  split
  · exact h
  rename_i connection hconnection
  split
  · exact h
  rename_i msg' hser
  have hwire := (isWire_of_serializeInPlace hser).1
  have hholds : st.holder (.direct key) = some connection.conn := by
    rw [holder, hconnection, map_some]
  split
  · rename_i st' hsend
    exact (h.sendAll_complete (.direct key) hholds not_waiting_direct hwire hsend).sound
  · rename_i st' hsend
    have hwrite := Writers.Disciplined.write (o := ConnOwner.direct key) h.streams
      (writes_sendAll st connection.conn msg'.payload.bytes timeoutMs plan) hholds
      not_waiting_direct hwire
    have hst' : (st.sendAll connection.conn msg'.payload.bytes timeoutMs plan).2 = st' := by
      rw [hsend]
    have hcalls : st'.pendingCalls = st.pendingCalls := by
      rw [← hst']
      rfl
    have hsubs : ∀ topicId, (st'.tcpSubscribers topicId).Nodup := by
      rw [← hst']
      exact h.subscribers
    rw [hst'] at hwrite
    have hgone : (st'.removeConnection key).Disciplined st.pendingCalls
        (pendingBroken st.pendingCalls) := by
      refine ⟨hwrite.shrink (loses_removeConnection st' key).writers ?_, hcalls, hsubs⟩
      rintro owner hheld (hmark | ⟨rfl, _⟩)
      · exact hmark
      · simp [writers, holder_removeConnection] at hheld
    exact hgone.sound

theorem Sound.step (h : st.Sound) {event : DataPlaneEvent} (hcare : Careful alloc st event) :
    (st.step alloc event).Sound := by
  cases event with
  | registerService name => exact (h.lose (loses_registerService st name)).sound
  | unregisterService name => exact (h.lose (loses_unregisterService st name)).sound
  | publishTopic topicId owner => exact (h.setTopic topicId (h.subscribers topicId)).sound
  | setReplySendTimeout ms => exact ⟨h.streams, h.calls, h.subscribers⟩
  | clientAccepted name clientId => exact (h.onServiceClientAccepted name clientId).sound
  | clientMessage name clientId msg plan => exact h.clientMessage hcare
  | clientDisconnected name clientId => exact h.closed name clientId
  | broadcast topicId data plans => exact h.broadcast hcare
  | resume outcome plan => exact h.resume hcare
  | connect key endpoint opened => exact (h.getOrCreateConnectionByKey key endpoint opened).sound
  | removeConnection key => exact (h.lose (loses_removeConnection st key)).sound
  | sendMessage key msg timeoutMs plan => exact h.sendMessage key msg timeoutMs plan

theorem Sound.run (h : st.Sound) (events : List DataPlaneEvent)
    (hcare : CarefulRun alloc st events) : (st.run alloc events).Sound := by
  induction events generalizing st with
  | nil => exact h
  | cons event events ih => exact ih (h.step hcare.1) hcare.2

/-- In every run whose events all meet the condition, whatever was written to a connection is a sequence
    of whole frames with at most a part of one more behind them, and nothing follows a frame that was
    cut short. -/
theorem streams_stay_framed (alloc : Allocator) (incarnationId dataMaxSessionTimeoutMs : UInt32)
    (events : List DataPlaneEvent)
    (hcare : CarefulRun alloc (init incarnationId dataMaxSessionTimeoutMs) events) (conn : Nat) :
    let log := ((init incarnationId dataMaxSessionTimeoutMs).run alloc events).sends conn
    (∃ (whole : List Bytes) (tail frame : Bytes), streamBytes log = whole.flatten ++ tail ∧
      (∀ f ∈ whole, IsWire f) ∧ (tail = [] ∨ IsWire frame ∧ tail <+: frame)) ∧
    log.Pairwise fun a b => a.Cut → b.sent = 0 := by
  have hsound := Sound.run (disciplined_init incarnationId dataMaxSessionTimeoutMs).sound events hcare
  have hframed := hsound.streams.framed conn
  exact ⟨hframed.stream, hframed.ends⟩

/-! ### A reply that is cut short -/

/-- A message as a client sends it. -/
def clientMessage (type : UInt16) (payload : Bytes) : Message :=
  messageWith type 1 (·.writeRaw .succeeds payload)

/-- A hello of runtime `r` on host `h` in incarnation 9. -/
def sampleHello : Message :=
  let word := fun n => encode 4 n
  clientMessage msgSessionHello
    (word 1 ++ (word 1 ++ ascii "r") ++ word 9 ++ word 3000 ++ word 10000 ++ word 0 ++
      (word 1 ++ ascii "h") ++ word 0 ++ word 77)

/-- One client says hello, invokes a method and sends a heartbeat; the sockets take the reply and the
    acknowledgement as given. -/
def sampleRun (reply ack : List SocketSend) : List DataPlaneEvent :=
  [.registerService (ascii "s"), .clientAccepted (ascii "s") 7,
    .clientMessage (ascii "s") 7 sampleHello [.wrote 36],
    .clientMessage (ascii "s") 7 (clientMessage msgInvoke []) [],
    .resume (.success [1, 2, 3]) reply,
    .clientMessage (ascii "s") 7 (clientMessage msgHeartbeat (encode 4 9)) ack]

/-- The runtime after a run from its start. -/
def after (events : List DataPlaneEvent) : DataPlane := (init 4 0).run .succeeds events

/-- The lengths of the frames sent on a connection, and how much of each was written. -/
def sentLengths (st : DataPlane) (conn : Nat) : List (Nat × Nat) :=
  (st.sends conn).map fun r => (r.frame.length, r.sent)

theorem whole_replies_stay_framed :
    (after (sampleRun [.wrote 20, .retry, .wrote 7] [])).sentLengths 0 =
        [(36, 36), (27, 27), (20, 0)] ∧
      ((after (sampleRun [.wrote 20, .retry, .wrote 7] [])).sends 0).Pairwise
        fun a b => a.Cut → b.sent = 0 :=
  ⟨by decide +kernel, (streams_stay_framed .succeeds 4 0
    (sampleRun [.wrote 20, .retry, .wrote 7] []) (by decide +kernel) 0).2⟩

/-- Five bytes of a reply reach the socket before its budget is used up. The connection is kept, and the
    next acknowledgement is written behind them. -/
theorem torn_reply_is_followed :
    (after (sampleRun [.wrote 5, .expired] [.wrote 20])).sentLengths 0 =
        [(36, 36), (27, 5), (20, 20)] ∧
      ¬ ((after (sampleRun [.wrote 5, .expired] [.wrote 20])).sends 0).Pairwise
        fun a b => a.Cut → b.sent = 0 := by
  decide +kernel

end DataPlane

end OmniBinder
