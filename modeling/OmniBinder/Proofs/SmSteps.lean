/-
Module: OmniBinder.Proofs.SmSteps
Purpose: What one event can do to the ServiceManager. A handler makes a few changes of its own to the
  tables, listed by `Effect`, and what it sends in between is nested.
Trusted boundary: none
Main exports: Effect, run_invariant
-/
import OmniBinder.Proofs.RecordLayout
import OmniBinder.Proofs.SmQueues

namespace OmniBinder.ServiceManager

open MessageType App ServiceRegistry

variable {ok : ServiceRegistry → Outgoing → Prop} {P : App → Prop} {s s' : App} {fd : Int}
  {conn : ClientConnection} {msg : ReceivedMessage} {info : ServiceInfo}

/-! ### Descriptions that came in a message -/

/-- A description within the limits of a message. -/
def Received (info : ServiceInfo) : Prop := info.Countable ∧ info.wireSize ≤ maxMessageSize

theorem received_of_read {view rest : Bytes}
    (hview : view.length ≤ msg.payload.length) (h : deserializeServiceInfo view = some (info, rest)) :
    Received info := by
  obtain ⟨hsize, hcount⟩ := deserializeServiceInfo_bounds h
  have hfits := msg.fits
  exact ⟨hcount, by omega⟩

theorem received_of_run (h : deserializeServiceInfo.run msg.payload = some info) :
    Received info := by
  obtain ⟨⟨_, rest⟩, hread, rfl⟩ := Option.map_eq_some_iff.mp h
  exact received_of_read le_rfl hread

theorem received_of_publish {topic : Bytes} {idlHash : UInt32}
    (h : parsePublishTopicRequest msg = some (topic, info, idlHash)) : Received info := by
  obtain ⟨⟨_, rest⟩, hread, hsame⟩ := Option.map_eq_some_iff.mp h
  cases hsame
  obtain ⟨topic', behind, htopic, hread⟩ := View.bind_eq_some.mp hread
  have hview : behind.length ≤ msg.payload.length := by
    rw [takes_tryReadString _ _ _ htopic]
    exact Nat.le_add_left _ _
  split_ifs at hread
  · cases hread
  obtain ⟨info', behind', hinfo, hread⟩ := View.bind_eq_some.mp hread
  suffices hsame : info' = info from received_of_read hview (hsame ▸ hinfo)
  have hlast : ∀ (hash : UInt32) (view : Bytes), (remaining >>= fun left =>
      if left ≠ 0 ∨ info'.name.isEmpty ∨ info'.name.length > maxServiceNameLength then View.fail
      else pure (topic', info', hash)) view = some ((topic, info, idlHash), rest) → info' = info := by
    intro hash view hread
    obtain ⟨left, _, _, hread⟩ := View.bind_eq_some.mp hread
    split_ifs at hread
    · cases hread
    · obtain ⟨hmade, -⟩ := View.pure_eq_some.mp hread
      cases hmade
      rfl
  obtain ⟨left, _, _, hread⟩ := View.bind_eq_some.mp hread
  -- the hash is there or not
  split_ifs at hread
  · obtain ⟨hash, view, _, hread⟩ := View.bind_eq_some.mp hread
    exact hlast hash view hread
  · obtain ⟨hash, view, _, hread⟩ := View.bind_eq_some.mp hread
    exact hlast hash view hread

/-! ### The changes of the handlers -/

/-- The changes that handlers make to the tables themselves. -/
inductive Effect where
  | register (info : ServiceInfo)
  | unregister (identity : ServiceIdentity)
  | dropPublishers (name : Bytes) (owner : Int)
  | watch (watchId : UInt64) (filters : List ServiceWatchFilter)
  | unwatch (watchId : UInt64)
  | publish (topic : Bytes) (info : ServiceInfo) (idlHash : UInt32)
  | unpublish (topic : Bytes)
  | subscribe (topic : Bytes) (selector : TopicSubscriptionFilter)
  | unsubscribe (topic : Bytes) (selector : TopicSubscriptionFilter)
  | greet (conn : ClientConnection) (info : RuntimeInfo) (runtimeId : Bytes)
      (interval timeout : UInt32)
  | addWatcher (pid : UInt32)
  | dropWatcher (pid : UInt32)

namespace Effect

/-- The state after a change made for a connection. -/
def apply (fd : Int) (s : App) : Effect → App
  | register info =>
    { s with registry := (s.registry.addService info fd).2.2 }.record
      (.serviceRegistered info.name info.instanceId)
  | unregister identity =>
    { s with registry := (s.registry.removeServiceByIdentity identity).2 }
  | dropPublishers name owner =>
    { s with topicManager := s.topicManager.removePublishersByService name owner }
  | watch watchId filters =>
    { s with watchNotifier := (s.watchNotifier.subscribe fd watchId filters).2 }.record
      (.watchSubscribed fd watchId)
  | unwatch watchId => { s with watchNotifier := s.watchNotifier.unsubscribe fd watchId }
  | publish topic info idlHash =>
    { s with topicManager := (s.topicManager.registerPublisher topic info fd idlHash).2 }.record
      (.topicPublished info.name topic info.instanceId)
  | unpublish topic => { s with topicManager := s.topicManager.removePublisher topic fd }
  | subscribe topic selector =>
    { s with
      topicManager := (s.topicManager.addSubscriber topic selector fd).2
      trace := if (s.topicManager.addSubscriber topic selector fd).1 then
          .topicSubscribed fd selector.publisherService topic selector.key :: s.trace
        else s.trace }
  | unsubscribe topic selector =>
    { s with topicManager := s.topicManager.removeSubscriber topic selector fd }
  | greet conn info runtimeId interval timeout =>
    s.enterSession fd conn info runtimeId interval timeout
  | addWatcher pid => s.addWatcher fd pid
  | dropWatcher pid =>
    { s with
      watcherToPids := s.watcherToPids.remove fd pid
      pidWatchers := s.pidWatchers.update pid fun fds => fds.filter (· ≠ fd) }

/-- When a change is made for a connection. -/
def Fits (fd : Int) (s : App) : Effect → Prop
  | register info =>
    s.Alive fd ∧ (s.registry.addService info fd).1 ≠ invalidHandle ∧ Received info
  | unregister identity => ∃ entry, entry.controlFd = fd ∧ entry.info.identity = identity ∧
      s.registry.findEntry identity.name identity.instanceId = some entry
  | dropPublishers _ _ => True
  | watch watchId filters => s.Alive fd ∧ (s.watchNotifier.subscribe fd watchId filters).1 = true
  | unwatch _ => True
  | publish topic info idlHash => s.Alive fd ∧
      (s.topicManager.registerPublisher topic info fd idlHash).1 = true ∧
      ∃ entry parsed, entry.controlFd = fd ∧
        s.registry.findEntry info.name info.instanceId = some entry ∧ Received parsed ∧
        info = App.publishedInfo parsed entry
  | unpublish topic => topic ≠ [] ∧ topic.length ≤ maxTopicNameLength
  | subscribe _ _ => s.Alive fd
  | unsubscribe _ _ => True
  | greet conn _ _ _ _ => s.clients[fd]? = some conn
  | addWatcher _ => s.Alive fd
  | dropWatcher _ => True

end Effect

/-- A sequence of messages with what is nested in them and of changes of the given kinds. -/
inductive Steps (ok : ServiceRegistry → Outgoing → Prop) (kinds : Effect → Prop) (fd : Int) :
    App → App → Prop where
  | sends {s s' : App} : Sends ok s s' → Steps ok kinds fd s s'
  | effect {s : App} (e : Effect) : kinds e → e.Fits fd s → Steps ok kinds fd s (e.apply fd s)
  | trans {s s' s'' : App} : Steps ok kinds fd s s' → Steps ok kinds fd s' s'' →
      Steps ok kinds fd s s''

variable {kinds : Effect → Prop}

theorem Steps.refl (s : App) (fd : Int) : Steps ok kinds fd s s := .sends (.refl s)

/-- No restriction on the messages. -/
def AnyMessage (_ : ServiceRegistry) (_ : Outgoing) : Prop := True

theorem Steps.mono {ok' : ServiceRegistry → Outgoing → Prop} {kinds' : Effect → Prop}
    (hok : ∀ registry out, ok registry out → ok' registry out) (hkinds : ∀ e, kinds e → kinds' e)
    (h : Steps ok kinds fd s s') : Steps ok' kinds' fd s s' := by
  induction h with
  | sends h => exact .sends (h.mono hok)
  | effect e he hfits => exact .effect e (hkinds e he) hfits
  | trans _ _ ih ih' => exact ih.trans ih'

/-- An invariant of everything nested and of every change is one of a sequence of them. -/
theorem Steps.invariant (hnested : ∀ s s', Nested ok s s' → P s → P s')
    (heffect : ∀ s e, kinds e → e.Fits fd s → P s → P (e.apply fd s))
    (h : Steps ok kinds fd s s') (hs : P s) : P s' := by
  induction h with
  | sends h => exact hnested _ _ h.nested hs
  | effect e he hfits => exact heffect _ e he hfits hs
  | trans _ _ ih ih' => exact ih' (ih hs)

theorem steps_ite {c : Prop} [Decidable c] {a b : App}
    (ha : c → Steps ok kinds fd s a) (hb : Steps ok kinds fd s b) :
    Steps ok kinds fd s (if c then a else b) := by
  split_ifs with hc
  · exact ha hc
  · exact hb

/-! ### Messages that are no news for a watcher -/

/-- Every message but a watch notification. -/
def Outgoing.isWatchNotify : Outgoing → Bool
  | .serviceWatchNotify .. => true
  | _ => false

theorem quiet_of_not_watchNotify {out : Outgoing} (h : out.isWatchNotify = false)
    (registry : ServiceRegistry) : Quiet registry out := by
  rintro watchId identity online rfl
  cases h

/-- Setting a deadline changes at most the timers of the connection. -/
theorem armSessionDeadline_cases (s : App) (fd : Int) :
    s.armSessionDeadline fd = s ∨ ∃ conn conn', s.clients[fd]? = some conn ∧
      conn'.profile = conn.profile ∧ s.armSessionDeadline fd = s.setClient fd conn' := by
  unfold armSessionDeadline
  split
  · exact .inl rfl
  next conn hconn =>
  split_ifs
  · exact .inl rfl
  · exact .inr ⟨conn,
      { conn with
        sessionGeneration := conn.sessionGeneration + 1
        deadlineTimer := some (conn.sessionGeneration + 1) }, hconn, rfl, rfl⟩

theorem trace_armSessionDeadline (s : App) (fd : Int) : (s.armSessionDeadline fd).trace = s.trace := by
  rcases armSessionDeadline_cases s fd with hsame | ⟨conn, conn', -, -, hset⟩
  · rw [hsame]
  · rw [hset]
    rfl

theorem touches_armSessionDeadline (s : App) (fd : Int) : Touches s (s.armSessionDeadline fd) := by
  rcases armSessionDeadline_cases s fd with hsame | ⟨conn, conn', hconn, hprofile, hset⟩
  · rw [hsame]
    exact Touches.refl s
  · rw [hset]
    exact touches_setClient hconn hprofile

section
variable (hquiet : ∀ registry out, Quiet registry out → ok registry out)
include hquiet

/-- A reply or any other message that is no watch notification. -/
theorem sends_reply (s : App) (fd : Int) (sequence : UInt32) (out : Outgoing)
    (hout : out.isWatchNotify = false) : Sends ok s (s.sendMessage closeFailed fd sequence out) :=
  sends_message (fun registry out h => hquiet registry out h.1) s fd sequence
    (hquiet _ _ (quiet_of_not_watchNotify hout _))

theorem sends_boolReply (s : App) (fd : Int) (type : UInt16) (sequence : UInt32) (ok' : Bool) :
    Sends ok s (s.sendBoolReply fd type sequence ok') :=
  sends_reply hquiet s fd sequence _ rfl

end

section
variable (hun : ∀ registry out, Unprompted registry out → ok registry out)
include hun

theorem unprompted_of_not_watchNotify {out : Outgoing} (hout : out.isWatchNotify = false)
    (hreply : out.isReply = false) (registry : ServiceRegistry) : ok registry out :=
  hun _ _ ⟨quiet_of_not_watchNotify hout _, hreply⟩

theorem sends_topicPublisherNotify (s : App) (fd : Int) (topic : Bytes) (info : ServiceInfo)
    (idlHash : UInt32) : Sends ok s (s.sendTopicPublisherNotify fd topic info idlHash) :=
  sends_ite (sends_proactive hun s fd (unprompted_of_not_watchNotify hun rfl rfl _)) (.refl s)

end

/-! ### Handlers -/

/-- The types of messages of a connection that lead to a change. -/
def Effect.OfType (type : UInt16) (fd : Int) : Effect → Prop
  | register _ => type = MessageType.register
  | unregister _ => type = MessageType.unregister
  | dropPublishers _ owner =>
    type = MessageType.register ∨ (type = MessageType.unregister ∧ owner = fd)
  | watch _ _ => type = MessageType.subscribeServiceWatch
  | unwatch _ => type = MessageType.unsubscribeServiceWatch
  | publish _ _ _ => type = MessageType.publishTopic
  | unpublish _ => type = MessageType.unpublishTopic
  | subscribe _ _ => type = MessageType.subscribeTopic
  | unsubscribe _ _ => type = MessageType.unsubscribeTopic
  | greet _ _ _ _ _ => type = MessageType.runtimeHello
  | addWatcher _ => type = MessageType.diagWatchStart
  | dropWatcher _ => type = MessageType.diagWatchStop

/-- Only two types of messages bring watchers good news. -/
def MayAnnounce (type : UInt16) (registry : ServiceRegistry) (out : Outgoing) : Prop :=
  type = MessageType.register ∨ type = MessageType.subscribeServiceWatch ∨ Quiet registry out

/-- What is sent beside a reply. -/
def Aside (type : UInt16) (registry : ServiceRegistry) (out : Outgoing) : Prop :=
  MayAnnounce type registry out ∧ out.isReply = false

section
variable (type : UInt16) (registry : ServiceRegistry) (out : Outgoing)

theorem mayAnnounce_of_quiet (h : Quiet registry out) : MayAnnounce type registry out :=
  .inr (.inr h)

theorem aside_of_unprompted (h : Unprompted registry out) : Aside type registry out :=
  ⟨.inr (.inr h.1), h.2⟩

theorem quiet_of_unprompted (h : Unprompted registry out) : Quiet registry out := h.1

theorem anyMessage_of_unprompted (_ : Unprompted registry out) : AnyMessage registry out := trivial

theorem anyMessage_of_quiet (_ : Quiet registry out) : AnyMessage registry out := trivial

end

section
variable (s fd msg)

section
variable (hun : ∀ registry out, Unprompted registry out → ok registry out)
include hun

theorem sends_announceRegistration (old : Option ServiceEntry) (info : ServiceInfo)
    (hok : ∀ identity : ServiceIdentity, identity = info.identity ∨
        (∃ entry, old = some entry ∧ identity = entry.info.identity) →
      ∀ registry watchId online, ok registry (.serviceWatchNotify watchId identity online)) :
    Sends ok s (s.announceRegistration old info fd) := by
  have hnew := fun (s : App) => sends_notify hun s info.identity true fun _ _ _ =>
    hok _ (.inl rfl) _ _ _
  unfold announceRegistration
  split
  · exact hnew s
  · next entry =>
    refine sends_ite ?_ (.refl s)
    exact (sends_notify hun s entry.info.identity false fun _ _ _ =>
      hok _ (.inr ⟨entry, rfl, rfl⟩) _ _ _).trans (hnew _)

theorem steps_releaseDisplaced (hkinds : ∀ name owner, kinds (.dropPublishers name owner))
    (name : Bytes) (displacedFd newFd : Int) :
    Steps ok kinds fd s (s.releaseDisplaced name displacedFd newFd) := by
  have hdropped : Steps ok kinds fd s ((Effect.dropPublishers name displacedFd).apply fd s) :=
    .effect _ (hkinds _ _) trivial
  refine steps_ite (fun _ => ?_) (.refl s fd)
  exact steps_ite (fun _ => hdropped.trans (.sends (sends_closeClient hun _ displacedFd true))) hdropped

theorem sends_notifyServiceRemoved {identity : ServiceIdentity}
    (hgone : s.registry.findEntry identity.name identity.instanceId = none) :
    Sends ok s (s.notifyServiceRemoved closeFailed identity) :=
  sends_notify hun s identity false fun _ hs' watchId =>
    hun _ _ (unprompted_offline watchId (hs'.findEntry_none hgone))

theorem sends_initialServiceWatch
    (hok : ∀ registry watchId identity online, ok registry (.serviceWatchNotify watchId identity online))
    (watchId : UInt64) (filter : ServiceWatchFilter) :
    Sends ok s (s.sendInitialServiceWatch fd watchId filter) := by
  have hsend := fun (s : App) (identity : ServiceIdentity) (online : Bool) =>
    sends_watchNotify hun s fd watchId identity online (hok _ _ _ _)
  simp only [sendInitialServiceWatch]
  exact sends_ite (hsend s _ _) (sends_foldl _ _ fun s' identity => hsend s' identity true)

theorem sends_supersede (sessionKey : Bytes) (incarnationId : UInt32) :
    Sends ok s (s.supersede fd sessionKey incarnationId) := by
  unfold supersede
  split
  · exact .refl s
  · exact sends_ite (.refl s) (sends_closeClient hun s _ _)

theorem sends_setLogLevel (level : UInt32) : Sends ok s (setLogLevel level fd s).2 := by
  have hsend : Sends ok s (s.sendProactive closeFailed fd (.diagSetLogLevel level)) :=
    sends_proactive hun s fd (unprompted_of_not_watchNotify hun rfl rfl _)
  unfold setLogLevel
  simp only
  split
  · exact hsend
  · next conn hconn =>
    exact hsend.trans (sends_setClient hconn rfl ⟨⟨rfl, rfl, rfl⟩, rfl, rfl, rfl⟩)

theorem sends_startWatch : Sends ok s (startWatch fd s).2 :=
  sends_proactive hun s fd (unprompted_of_not_watchNotify hun rfl rfl _)

theorem steps_removeWatcherPair (hdrop : ∀ pid, kinds (.dropWatcher pid)) (pid : UInt32) :
    Steps ok kinds fd s (s.removeWatcherPair fd pid) := by
  have hdropped : Steps ok kinds fd s ((Effect.dropWatcher pid).apply fd s) :=
    .effect (.dropWatcher pid) (hdrop pid) trivial
  refine steps_ite (fun _ => ?_) (.refl s fd)
  refine steps_ite (fun _ => hdropped) (hdropped.trans (.sends ?_))
  exact sends_forEachPidConn pid fd _ fun fd' s' =>
    sends_proactive hun s' fd' (unprompted_of_not_watchNotify hun rfl rfl _)

end

/-- The replies of fixed size. -/
def Outgoing.isShort : Outgoing → Bool
  | .registerReply _ | .boolReply .. | .subscribeTopicReply .. | .runtimeHelloReply _ => true
  | _ => false

/-- What a message does besides the reply to it. -/
abbrev StepsAside (fd : Int) (msg : ReceivedMessage) : App → App → Prop :=
  Steps (Aside msg.type) (Effect.OfType msg.type fd) fd

/-- A request is answered with one reply of fixed size, with changes and messages that answer nothing
    around it, unless the connection is closed on the way. -/
inductive Answered (fd : Int) (msg : ReceivedMessage) (reply : UInt16) : App → App → Prop where
  | reply {s s₁ s' : App} (out : Outgoing) : out.isShort = true → out.type = reply →
      StepsAside fd msg s s₁ →
      StepsAside fd msg (s₁.sendMessage App.closeFailed fd msg.sequence out) s' →
      Answered fd msg reply s s'
  | gone {s s' : App} : StepsAside fd msg s s' → ¬ s'.Alive fd → Answered fd msg reply s s'

theorem Answered.at_once (out : Outgoing) (hshort : out.isShort = true) :
    Answered fd msg out.type s (s.sendMessage closeFailed fd msg.sequence out) :=
  .reply out hshort rfl (.refl s fd) (.refl _ fd)

/-- What a message does: the changes of its type, and news for watchers for two types only. -/
abbrev StepsOfType (fd : Int) (msg : ReceivedMessage) : App → App → Prop :=
  Steps (MayAnnounce msg.type) (Effect.OfType msg.type fd) fd

theorem Answered.steps {reply : UInt16} {s s' : App} {fd : Int} {msg : ReceivedMessage}
    (h : Answered fd msg reply s s') : StepsOfType fd msg s s' := by
  have haside : ∀ {s s' : App}, StepsAside fd msg s s' → StepsOfType fd msg s s' :=
    fun h => h.mono (fun _ _ => And.left) fun _ => id
  rcases h with ⟨out, hshort, -, hbefore, hafter⟩ | ⟨h, -⟩
  · have hout : out.isWatchNotify = false := by
      cases out with
      | serviceWatchNotify watchId identity online => cases hshort
      | _ => rfl
    exact (haside hbefore).trans ((Steps.sends (sends_reply (mayAnnounce_of_quiet _) _ fd msg.sequence
      out hout)).trans (haside hafter))
  · exact haside h

/-- An accepted registration up to the release of the former owner. -/
def App.announced (sequence : UInt32) (info : ServiceInfo) : App :=
  (((Effect.register info).apply fd s).sendMessage App.closeFailed fd sequence
    (.registerReply (s.registry.addService info fd).1)).announceRegistration
      (s.registry.findServiceByIdentity info.identity) info fd

theorem nested_announced (sequence : UInt32) (info : ServiceInfo) :
    Nested AnyMessage ((Effect.register info).apply fd s) (s.announced fd sequence info) :=
  (sends_reply anyMessage_of_quiet _ fd sequence _ rfl).nested.trans
    (sends_announceRegistration _ fd anyMessage_of_unprompted _ info fun _ _ _ _ _ => trivial).nested

/-- A registration is refused with a reply, or made. -/
theorem handleRegister_cases (conn : ClientConnection) : s.handleRegister fd conn msg =
        s.sendMessage closeFailed fd msg.sequence (.registerReply invalidHandle) ∨
      ∃ info, (s.registry.addService info fd).1 ≠ invalidHandle ∧
        deserializeServiceInfo.run msg.payload = some info ∧
        s.handleRegister fd conn msg = (s.announced fd msg.sequence info).releaseDisplaced info.name
          (s.registry.addService info fd).2.1 fd := by
  simp only [handleRegister]
  split_ifs
  · exact .inl rfl
  split
  · exact .inl rfl
  · next info hinfo =>
    split_ifs with hhandle
    · exact .inl rfl
    · exact .inr ⟨info, hhandle, hinfo, rfl⟩

/-- An unregistration is refused with a reply, or made for an instance of the connection. -/
theorem handleUnregister_cases : s.handleUnregister fd msg =
        s.sendBoolReply fd unregisterReply msg.sequence false ∨
      ∃ identity, (Effect.unregister identity).Fits fd s ∧ s.handleUnregister fd msg = (if fd ≥ 0 then
            (Effect.dropPublishers identity.name fd).apply fd
              (((Effect.unregister identity).apply fd s).notifyServiceRemoved closeFailed identity)
          else ((Effect.unregister identity).apply fd s).notifyServiceRemoved closeFailed
            identity).sendBoolReply fd unregisterReply msg.sequence true := by
  unfold handleUnregister
  split
  · exact .inl rfl
  next name hname =>
  split
  · exact .inl rfl
  next entry hentry =>
  obtain ⟨hservice, howner, hfound⟩ := findServiceByFdAndName_some hentry
  have hidentity : s.registry.findEntry entry.info.identity.name
      entry.info.identity.instanceId = some entry := by
    rw [← hfound, ← hservice]
    rfl
  refine .inr ⟨entry.info.identity, ⟨entry, howner, rfl, hidentity⟩, ?_⟩
  have hremoved := removeServiceByIdentity_fst s.registry entry.info.identity
  rw [hidentity] at hremoved
  simp only [removeServiceAndNotify]
  rcases hpair : s.registry.removeServiceByIdentity entry.info.identity with ⟨done, registry⟩
  rw [hpair] at hremoved
  cases hremoved
  simp only [Effect.apply, hpair]

theorem findEntry_unregister (identity : ServiceIdentity) :
    ((Effect.unregister identity).apply fd s).registry.findEntry identity.name
      identity.instanceId = none :=
  (findEntry_removeServiceByIdentity _ _ _ _).trans (if_pos ⟨rfl, rfl⟩)

theorem sends_handleControlHeartbeat (conn : ClientConnection) :
    Sends Quiet s (s.handleControlHeartbeat fd conn msg) := by
  have hclose := sends_closeClient quiet_of_unprompted s fd true
  refine sends_ite hclose ?_
  split
  · exact hclose
  · refine sends_ite hclose (Sends.trans ?_ (sends_reply (fun _ _ => id) _ fd _ _ rfl))
    exact ⟨.touch (touches_armSessionDeadline s fd), fun hR => hR.armSessionDeadline fd⟩

/-- A watch is refused with a reply, or entered and told what there is. -/
theorem handleSubscribeServiceWatch_cases :
    s.handleSubscribeServiceWatch fd msg =
        s.sendBoolReply fd subscribeServiceWatchReply msg.sequence false ∨
      ∃ watchId filters, (s.watchNotifier.subscribe fd watchId filters).1 = true ∧
        s.handleSubscribeServiceWatch fd msg =
          filters.foldl
            (fun s filter =>
              if s.clients.contains fd then s.sendInitialServiceWatch fd watchId filter else s)
            (((Effect.watch watchId filters).apply fd s).sendBoolReply fd
              subscribeServiceWatchReply msg.sequence true) := by
  unfold handleSubscribeServiceWatch
  split
  · exact .inl rfl
  next watchId filters hrequest =>
  rcases hpair : s.watchNotifier.subscribe fd watchId filters with ⟨_ | _, watchNotifier⟩
  · exact .inl rfl
  · refine .inr ⟨watchId, filters, congrArg Prod.fst hpair, ?_⟩
    simp only [Effect.apply, hpair]

/-- A publication is refused with a reply, or made and told to the subscribers. -/
theorem handlePublishTopic_cases (halive : s.Alive fd) :
    s.handlePublishTopic fd msg =
        s.sendBoolReply fd publishTopicReply msg.sequence false ∨
      ∃ topic info parsed idlHash owner, parsePublishTopicRequest msg = some (topic, parsed, idlHash) ∧
        s.registry.findServiceByFdAndName fd parsed.name = some owner ∧
        info = publishedInfo parsed owner ∧ (Effect.publish topic info idlHash).Fits fd s ∧
        s.handlePublishTopic fd msg =
          ((((Effect.publish topic info idlHash).apply fd s).sendBoolReply fd
            publishTopicReply msg.sequence true).topicManager.getMatchingSubscribers topic
              info).foldl (fun s subscriber => s.sendTopicPublisherNotify subscriber topic info idlHash)
                (((Effect.publish topic info idlHash).apply fd s).sendBoolReply fd
                  publishTopicReply msg.sequence true) := by
  unfold handlePublishTopic
  split
  · exact .inl rfl
  next topic parsed idlHash hparse =>
  split
  · exact .inl rfl
  next owner howner =>
  simp only
  obtain ⟨hservice, hcontrol, hfound⟩ := findServiceByFdAndName_some howner
  rcases TopicManager.registerPublisher_cases s.topicManager topic (publishedInfo parsed owner)
    fd idlHash with ⟨hno, hsame⟩ | ⟨hyes, -⟩
  · rcases hpair : s.topicManager.registerPublisher topic (publishedInfo parsed owner) fd
      idlHash with ⟨_ | _, topicManager⟩
    · rw [hpair] at hsame
      cases hsame
      exact .inl rfl
    · rw [hpair] at hno
      cases hno
  · refine .inr ⟨topic, _, parsed, idlHash, owner, hparse, howner, rfl,
      ⟨halive, hyes, owner, parsed, hcontrol, hfound, received_of_publish hparse, rfl⟩, ?_⟩
    rcases hpair : s.topicManager.registerPublisher topic (publishedInfo parsed owner) fd
      idlHash with ⟨_ | _, topicManager⟩
    · rw [hpair] at hyes
      cases hyes
    · simp only [Effect.apply, hpair]

/-- A topic read from a request to unpublish is one that can be published. -/
theorem tryReadExactTopicArg_valid {topic : Bytes} (h : tryReadExactTopicArg msg = some topic) :
    topic ≠ [] ∧ topic.length ≤ maxTopicNameLength := by
  obtain ⟨⟨value, rest⟩, hread, rfl⟩ := Option.map_eq_some_iff.mp h
  simp only [bind, View.bind, remaining] at hread
  split at hread
  · cases hread
  split_ifs at hread with hbad
  · cases hread
  · cases hread
    simp only [not_or, List.isEmpty_iff, Nat.not_lt] at hbad
    exact ⟨hbad.1, hbad.2.1⟩

/-- A subscription is malformed, or goes to the topics and is told the publishers. -/
theorem handleSubscribeTopic_cases :
    s.handleSubscribeTopic fd msg =
        s.sendMessage closeFailed fd msg.sequence (.subscribeTopicReply false 0) ∨
      ∃ topic selector added idlHash, parseSubscribeTopicRequest msg = some (topic, selector) ∧
        s.handleSubscribeTopic fd msg =
          ((((Effect.subscribe topic selector).apply fd s).sendMessage closeFailed fd msg.sequence
            (.subscribeTopicReply added idlHash)).topicManager.getMatchingPublishers topic selector).foldl
              (fun s view => s.sendTopicPublisherNotify fd topic view.info view.idlHash)
              (((Effect.subscribe topic selector).apply fd s).sendMessage closeFailed fd
                msg.sequence (.subscribeTopicReply added idlHash)) := by
  unfold handleSubscribeTopic
  split
  · exact .inl rfl
  · next topic selector hparse =>
    rcases hpair : s.topicManager.addSubscriber topic selector fd with ⟨added, topicManager⟩
    refine .inr ⟨topic, selector, added, (topicManager.getIdlHash topic selector).getD 0, hparse, ?_⟩
    simp only [Effect.apply, hpair]
    cases added <;> rfl

/-- What entering a session does: the connection has the profile of the hello, its session key leads to
    it, and its process is the one the hello names. -/
structure Greeted (fd : Int) (conn : ClientConnection) (info : RuntimeInfo) (runtimeId : Bytes)
    (s s' : App) : Prop where
  profile_eq : ∀ fd', s'.profile? fd' =
    if fd = fd' then
      some ⟨info.pid, true, makeRuntimeSessionKey info.hostId runtimeId, info.incarnationId,
        conn.serial⟩
    else s.profile? fd'
  sessions_eq : s'.runtimeSessions =
    s.runtimeSessions.insert (makeRuntimeSessionKey info.hostId runtimeId) fd
  mem_pidToFds : ∀ pid fd', fd' ∈ s'.pidToFds.values pid ↔ (fd' = fd ∧ pid = info.pid) ∨
    (fd' ∈ s.pidToFds.values pid ∧
      ¬ (conn.runtimeRegistered = true ∧ conn.pid ≠ info.pid ∧ pid = conn.pid ∧ fd' = fd))
  registry_eq : s'.registry = s.registry
  watchNotifier_eq : s'.watchNotifier = s.watchNotifier
  topicManager_eq : s'.topicManager = s.topicManager
  pidWatchers_eq : s'.pidWatchers = s.pidWatchers
  watcherToPids_eq : s'.watcherToPids = s.watcherToPids
  nextSerial_eq : s'.nextSerial = s.nextSerial
  trace_eq : s'.trace = s.trace

theorem leaveProcess_cases (conn : ClientConnection) (pid : UInt32) :
    ∃ pidToFds : ListIndex UInt32 Int,
      (if conn.runtimeRegistered = true ∧ conn.pid ≠ pid then s.removePidFd conn.pid fd else s) =
        { s with pidToFds } ∧
      ∀ pid' fd', fd' ∈ pidToFds.values pid' ↔ fd' ∈ s.pidToFds.values pid' ∧
        ¬ (conn.runtimeRegistered = true ∧ conn.pid ≠ pid ∧ pid' = conn.pid ∧ fd' = fd) := by
  split_ifs with hmoved
  · refine ⟨_, rfl, fun pid' fd' => ?_⟩
    rw [ListIndex.values_update _ _ _ rfl]
    by_cases hpid : conn.pid = pid'
    · simp [hpid, hmoved.1, hpid ▸ hmoved.2]
    · simp [hpid, Ne.symm hpid]
  · refine ⟨_, rfl, fun pid' fd' => ?_⟩
    exact (and_iff_left fun hall => hmoved ⟨hall.1, hall.2.1⟩).symm

theorem joinProcess_cases (pid : UInt32) :
    ∃ pidToFds : ListIndex UInt32 Int,
      (if fd ∈ s.pidToFds.values pid then s else { s with pidToFds := s.pidToFds.push pid fd }) =
        { s with pidToFds } ∧
      ∀ pid' fd', fd' ∈ pidToFds.values pid' ↔
        (fd' = fd ∧ pid' = pid) ∨ fd' ∈ s.pidToFds.values pid' := by
  split_ifs with hthere
  · refine ⟨_, rfl, fun pid' fd' => (or_iff_right_of_imp ?_).symm⟩
    rintro ⟨rfl, rfl⟩
    exact hthere
  · refine ⟨_, rfl, fun pid' fd' => ?_⟩
    rw [ListIndex.values_push]
    by_cases hpid : pid = pid'
    · simp [hpid, or_comm]
    · simp [hpid, Ne.symm hpid]

theorem greeted_enterSession (conn : ClientConnection) (info : RuntimeInfo) (runtimeId : Bytes)
    (interval timeout : UInt32) :
    Greeted fd conn info runtimeId s (s.enterSession fd conn info runtimeId interval timeout) := by
  unfold enterSession
  obtain ⟨left, hleft, hmemLeft⟩ := leaveProcess_cases
    { s with
      runtimeSessions := s.runtimeSessions.insert (makeRuntimeSessionKey info.hostId runtimeId) fd }
    fd conn info.pid
  simp only [hleft]
  set entered : App := setClient _ fd _ with hentered
  have htouch := touches_armSessionDeadline entered fd
  obtain ⟨joined, hjoined, hmemJoined⟩ := joinProcess_cases (entered.armSessionDeadline fd) fd info.pid
  rw [hjoined]
  refine ⟨fun fd' => ?_, htouch.runtimeSessions_eq, fun pid fd' => ?_, htouch.registry_eq,
    htouch.watchNotifier_eq, htouch.topicManager_eq, htouch.pidWatchers_eq, htouch.watcherToPids_eq,
    htouch.nextSerial_eq, trace_armSessionDeadline entered fd⟩
  · refine (htouch.profile_eq fd').trans ?_
    simp only [profile?, hentered, setClient, Table.getElem?_insert]
    split_ifs
    · rfl
    · rfl
  · rw [hmemJoined, htouch.pidToFds_eq]
    exact or_congr Iff.rfl (hmemLeft pid fd')

/-- A hello is rejected, or supersedes an older session and is entered unless the connection is closed
    on the way. -/
theorem handleRuntimeHello_cases :
    (acceptedHello msg = none ∧ ∃ ack, s.handleRuntimeHello fd msg =
        s.sendMessage closeFailed fd msg.sequence (.runtimeHelloReply ack)) ∨
      ∃ info runtimeId, acceptedHello msg = some (info, runtimeId) ∧
        let s' := s.supersede fd (makeRuntimeSessionKey info.hostId runtimeId) info.incarnationId
        (¬ s'.Alive fd ∧ s.handleRuntimeHello fd msg = s') ∨
          ∃ conn interval timeout ack, s'.clients[fd]? = some conn ∧
            s.handleRuntimeHello fd msg =
              let greeted := (Effect.greet conn info runtimeId interval timeout).apply fd s'
              if ((Outgoing.runtimeHelloReply ack).message msg.sequence).isNone then
                greeted.closeClient fd true
              else greeted.sendMessage closeFailed fd msg.sequence (.runtimeHelloReply ack) := by
  unfold handleRuntimeHello
  split
  · next hnone => exact .inl ⟨hnone, _, rfl⟩
  next info runtimeId haccepted =>
  refine .inr ⟨info, runtimeId, haccepted, ?_⟩
  simp only
  split
  · next hgone => exact .inl ⟨not_alive_iff.mpr hgone, rfl⟩
  · next conn hconn =>
    exact .inr ⟨conn, clampHeartbeatInterval info.heartbeatIntervalMs,
      s.effectiveTimeout (clampHeartbeatInterval info.heartbeatIntervalMs) info.requestedTimeoutMs,
      _, hconn, rfl⟩

theorem steps_handleUnsubscribeServiceWatch (htype : msg.type = unsubscribeServiceWatch) :
    StepsOfType fd msg s (s.handleUnsubscribeServiceWatch fd msg) := by
  unfold handleUnsubscribeServiceWatch
  split
  · exact .refl s fd
  · next watchId hwatchId =>
    split_ifs
    · exact .refl s fd
    · exact .effect (.unwatch watchId) htype trivial

theorem steps_handleUnpublishTopic (htype : msg.type = unpublishTopic) :
    StepsOfType fd msg s (s.handleUnpublishTopic fd msg) := by
  unfold handleUnpublishTopic
  split
  · exact .refl s fd
  · next topic htopic =>
    exact .effect (.unpublish topic) htype (tryReadExactTopicArg_valid msg htopic)

theorem steps_handleUnsubscribeTopic (htype : msg.type = unsubscribeTopic) :
    StepsOfType fd msg s (s.handleUnsubscribeTopic fd msg) := by
  unfold handleUnsubscribeTopic
  split
  · exact .refl s fd
  · next topic selector _ => exact .effect (.unsubscribe topic selector) htype trivial

theorem answered_handleRegister (htype : msg.type = register) (conn : ClientConnection)
    (halive : s.Alive fd) :
    Answered fd msg registerReply s (s.handleRegister fd conn msg) := by
  rcases handleRegister_cases s fd msg conn with hrefused | ⟨info, hhandle, hinfo, hmade⟩
  · rw [hrefused]
    exact .at_once s fd msg (.registerReply invalidHandle) rfl
  rw [hmade, announced]
  refine .reply (.registerReply (s.registry.addService info fd).1) rfl rfl
    (.effect (.register info) htype ⟨halive, hhandle, received_of_run hinfo⟩) ?_
  exact (Steps.sends (sends_announceRegistration _ fd (aside_of_unprompted _)
    (s.registry.findServiceByIdentity info.identity) info fun _ _ _ _ _ => ⟨.inl htype, rfl⟩)).trans
      (steps_releaseDisplaced _ fd (aside_of_unprompted _) (fun _ _ => .inl htype) _ _ _)

theorem answered_handleUnregister (htype : msg.type = unregister) :
    Answered fd msg unregisterReply s (s.handleUnregister fd msg) := by
  rcases handleUnregister_cases s fd msg with hrefused | ⟨identity, hfits, hmade⟩
  · rw [hrefused]
    exact .at_once s fd msg (.boolReply _ false) rfl
  rw [hmade]
  refine .reply (.boolReply _ true) rfl rfl ?_ (.refl _ fd)
  have hremoved : StepsAside fd msg s (((Effect.unregister identity).apply fd
      s).notifyServiceRemoved closeFailed identity) :=
    (Steps.effect (.unregister identity) htype hfits).trans (.sends (sends_notifyServiceRemoved _
      (aside_of_unprompted _) (findEntry_unregister s fd identity)))
  exact steps_ite (fun _ => hremoved.trans (.effect (.dropPublishers identity.name fd)
    (.inr ⟨htype, rfl⟩) trivial)) hremoved

theorem answered_handleSubscribeServiceWatch (htype : msg.type = subscribeServiceWatch)
    (halive : s.Alive fd) : Answered fd msg subscribeServiceWatchReply s
      (s.handleSubscribeServiceWatch fd msg) := by
  rcases handleSubscribeServiceWatch_cases s fd msg with hrefused | ⟨watchId, filters, hdone, hmade⟩
  · rw [hrefused]
    exact .at_once s fd msg (.boolReply _ false) rfl
  rw [hmade]
  refine .reply (.boolReply _ true) rfl rfl (.effect (.watch watchId filters) htype
    ⟨halive, hdone⟩) (.sends ?_)
  exact sends_foldl _ _ fun s' filter =>
    sends_ite (sends_initialServiceWatch s' fd (aside_of_unprompted _)
      (fun _ _ _ _ => ⟨.inr (.inl htype), rfl⟩) watchId filter) (.refl s')

theorem answered_handlePublishTopic (htype : msg.type = publishTopic)
    (halive : s.Alive fd) :
    Answered fd msg publishTopicReply s (s.handlePublishTopic fd msg) := by
  rcases handlePublishTopic_cases s fd msg halive with
    hrefused | ⟨topic, info, parsed, idlHash, owner, -, -, -, hfits, hmade⟩
  · rw [hrefused]
    exact .at_once s fd msg (.boolReply _ false) rfl
  rw [hmade]
  refine .reply (.boolReply _ true) rfl rfl
    (.effect (.publish topic info idlHash) htype hfits) (.sends ?_)
  exact sends_foldl _ _ fun s' subscriber =>
    sends_topicPublisherNotify (aside_of_unprompted _) s' subscriber topic info idlHash

theorem answered_handleSubscribeTopic (htype : msg.type = subscribeTopic)
    (halive : s.Alive fd) :
    Answered fd msg subscribeTopicReply s (s.handleSubscribeTopic fd msg) := by
  rcases handleSubscribeTopic_cases s fd msg with
    hrefused | ⟨topic, selector, added, idlHash, -, hmade⟩
  · rw [hrefused]
    exact .at_once s fd msg (.subscribeTopicReply false 0) rfl
  rw [hmade]
  refine .reply (.subscribeTopicReply added idlHash) rfl rfl
    (.effect (.subscribe topic selector) htype halive) (.sends ?_)
  exact sends_foldl _ _ fun s' view =>
    sends_topicPublisherNotify (aside_of_unprompted _) s' fd topic view.info view.idlHash

theorem answered_handleRuntimeHello (htype : msg.type = runtimeHello) :
    Answered fd msg runtimeHelloReply s (s.handleRuntimeHello fd msg) := by
  rcases handleRuntimeHello_cases s fd msg with
    ⟨-, ack, hmade⟩ | ⟨info, runtimeId, -, hsuperseded⟩
  · rw [hmade]
    exact .at_once s fd msg (.runtimeHelloReply ack) rfl
  have hfirst : StepsAside fd msg s _ := .sends (sends_supersede s fd (aside_of_unprompted _)
    (makeRuntimeSessionKey info.hostId runtimeId) info.incarnationId)
  rcases hsuperseded with ⟨hgone, hmade⟩ | ⟨conn, interval, timeout, ack, hconn, hmade⟩
  · rw [hmade]
    exact .gone hfirst hgone
  rw [hmade]
  have hgreeted := hfirst.trans
    (.effect (.greet conn info runtimeId interval timeout) htype hconn)
  simp only
  split_ifs
  · exact .gone (hgreeted.trans (.sends (sends_closeClient (aside_of_unprompted _) _ fd true)))
      (closeClient_spec fd true _).2
  · exact .reply (.runtimeHelloReply ack) rfl rfl hgreeted (.refl _ fd)

theorem answered_handleDiagSetLogLevel :
    Answered fd msg diagSetLogLevelReply s (s.handleDiagSetLogLevel fd msg) := by
  unfold handleDiagSetLogLevel
  simp only
  split
  · exact .at_once s fd msg (.boolReply _ false) rfl
  · next pid level _ =>
    refine .reply (.boolReply _ _) rfl rfl (.sends ?_) (.refl _ fd)
    exact sends_forEachPidConn pid fd _ fun fd s' =>
      sends_setLogLevel s' fd (aside_of_unprompted _) level

theorem answered_handleDiagWatchStart (htype : msg.type = diagWatchStart) :
    Answered fd msg diagWatchStartReply s (s.handleDiagWatchStart fd msg) := by
  unfold handleDiagWatchStart
  split
  · exact .at_once s fd msg (.boolReply _ false) rfl
  next pid _ =>
  have hloop : StepsAside fd msg s (s.forEachPidConn pid fd startWatch).2 :=
    .sends (sends_forEachPidConn pid fd _ fun fd s' =>
      sends_startWatch s' fd (aside_of_unprompted _))
  simp only
  split_ifs with halive hsent
  · exact .reply (.boolReply _ _) rfl rfl (hloop.trans (.effect (.addWatcher pid) htype
      (contains_iff.mp halive))) (.refl _ fd)
  · exact .reply (.boolReply _ _) rfl rfl hloop (.refl _ fd)
  · exact .gone hloop fun hthere => halive (contains_iff.mpr hthere)

theorem answered_handleDiagWatchStop (htype : msg.type = diagWatchStop) :
    Answered fd msg diagWatchStopReply s (s.handleDiagWatchStop fd msg) := by
  unfold handleDiagWatchStop
  split
  · exact .at_once s fd msg (.boolReply _ false) rfl
  · next pid _ =>
    exact .reply (.boolReply _ true) rfl rfl (steps_removeWatcherPair s fd
      (aside_of_unprompted _) (fun _ => htype) pid) (.refl _ fd)

theorem steps_dispatchMessage (hconn : s.clients[fd]? = some conn) :
    StepsOfType fd msg s (s.dispatchMessage fd conn msg) := by
  have halive : s.Alive fd := ⟨conn, hconn⟩
  have hquiet := mayAnnounce_of_quiet msg.type
  have hreply := sends_reply hquiet s fd msg.sequence
  refine steps_ite (fun htype => ?_) <| steps_ite (fun htype => ?_) <|
    steps_ite (fun _ => ?_) <| steps_ite (fun _ => ?_) <| steps_ite (fun _ => ?_) <|
    steps_ite (fun _ => ?_) <| steps_ite (fun _ => ?_) <| steps_ite (fun _ => ?_) <|
    steps_ite (fun htype => ?_) <| steps_ite (fun htype => ?_) <|
    steps_ite (fun htype => ?_) <| steps_ite (fun htype => ?_) <|
    steps_ite (fun htype => ?_) <| steps_ite (fun htype => ?_) <|
    steps_ite (fun htype => ?_) <| steps_ite (fun _ => ?_) <|
    steps_ite (fun _ => ?_) <| steps_ite (fun htype => ?_) <|
    steps_ite (fun htype => ?_) ?_
  · exact (answered_handleRegister s fd msg htype conn halive).steps
  · exact (answered_handleUnregister s fd msg htype).steps
  · exact .sends ((sends_handleControlHeartbeat s fd msg conn).mono hquiet)
  · exact .sends (hreply _ rfl)
  · exact .sends (hreply _ rfl)
  · exact .sends (hreply _ rfl)
  · exact .sends (hreply _ rfl)
  · unfold handleQueryPublishedTopics
    split
    · exact .sends (hreply _ rfl)
    · exact .sends (hreply _ rfl)
  · exact (answered_handleSubscribeServiceWatch s fd msg htype halive).steps
  · exact steps_handleUnsubscribeServiceWatch s fd msg htype
  · exact (answered_handlePublishTopic s fd msg htype halive).steps
  · exact (answered_handleSubscribeTopic s fd msg htype halive).steps
  · exact steps_handleUnsubscribeTopic s fd msg htype
  · exact steps_handleUnpublishTopic s fd msg htype
  · exact (answered_handleRuntimeHello s fd msg htype).steps
  · exact .sends (hreply _ rfl)
  · exact (answered_handleDiagSetLogLevel s fd msg).steps
  · exact (answered_handleDiagWatchStart s fd msg htype).steps
  · exact (answered_handleDiagWatchStop s fd msg htype).steps
  · exact .refl s fd

section
variable {s fd msg}

theorem dispatchMessage_register (h : msg.type = register) :
    s.dispatchMessage fd conn msg = s.handleRegister fd conn msg := by
  unfold dispatchMessage
  rw [h]
  rfl

/-- The step of a registration that is accepted. -/
theorem step_register (hconn : s.clients[fd]? = some conn) (hhello : conn.helloReceived = true)
    (hregister : msg.type = register) {info : ServiceInfo}
    (hinfo : deserializeServiceInfo.run msg.payload = some info)
    (haccepted : (s.registry.addService info fd).1 ≠ invalidHandle) (plan : List SendOutcome) :
    s.step (.message fd msg, plan) =
      (announced { s with plan } fd msg.sequence info).releaseDisplaced info.name
        (s.registry.addService info fd).2.1 fd := by
  simp only [App.step, App.handle, hconn, dispatchMessage_register hregister, handleRegister, hhello,
    hinfo, if_neg haccepted]
  rfl

theorem dispatchMessage_unregister (h : msg.type = unregister) :
    s.dispatchMessage fd conn msg = s.handleUnregister fd msg := by
  unfold dispatchMessage
  rw [h]
  rfl

theorem dispatchMessage_runtimeHello (h : msg.type = runtimeHello) :
    s.dispatchMessage fd conn msg = s.handleRuntimeHello fd msg := by
  unfold dispatchMessage
  rw [h]
  rfl

theorem dispatchMessage_subscribeServiceWatch (h : msg.type = subscribeServiceWatch) :
    s.dispatchMessage fd conn msg = s.handleSubscribeServiceWatch fd msg := by
  unfold dispatchMessage
  rw [h]
  rfl

theorem dispatchMessage_publishTopic (h : msg.type = publishTopic) :
    s.dispatchMessage fd conn msg = s.handlePublishTopic fd msg := by
  unfold dispatchMessage
  rw [h]
  rfl

theorem dispatchMessage_subscribeTopic (h : msg.type = subscribeTopic) :
    s.dispatchMessage fd conn msg = s.handleSubscribeTopic fd msg := by
  unfold dispatchMessage
  rw [h]
  rfl

end

/-! ### Events -/

theorem nested_onClientWritable : Nested Quiet s (s.onClientWritable fd) := by
  unfold onClientWritable
  split
  · exact .refl s
  next conn hconn =>
  simp only
  rcases flushLoop conn.sendBuffer.size s.plan conn.sendOffset with ⟨flushed, offset, plan⟩
  have hset : ∀ conn' : ClientConnection, conn'.profile = conn.profile → Touches s
      (({ s with plan }.record (.transmitted fd ((conn.sendBuffer.bytes.take offset).drop
        conn.sendOffset))).setClient fd conn') := fun conn' hprofile =>
    ((touches_plan s plan).trans (touches_transmitted _ fd _)).trans
      (touches_setClient hconn hprofile)
  simp only
  split_ifs
  · exact (Nested.touch (hset { conn with sendOffset := offset } rfl)).trans
      (closeClient_spec fd true _).1
  · exact .touch (hset { conn with sendOffset := offset, writeEvents := true } rfl)
  · exact .touch (hset
      { conn with sendBuffer := conn.sendBuffer.clear, sendOffset := 0, writeEvents := false } rfl)

/-- A timer that fires is taken out of its connection, which may be closed then. -/
theorem sends_timer {conn conn' : ClientConnection} {s : App} {c : Prop} [Decidable c]
    (hconn : s.clients[fd]? = some conn) (hprofile : conn'.profile = conn.profile)
    (hsame : SameLink conn conn') :
    Sends Quiet s (if c then (s.setClient fd conn').closeClient fd true else s.setClient fd conn') :=
  have hset := sends_setClient hconn hprofile hsame
  sends_ite (hset.trans (sends_closeClient quiet_of_unprompted _ fd true)) hset

theorem sends_onHelloTimer : Sends Quiet s (s.onHelloTimer fd) := by
  unfold onHelloTimer
  split
  · exact .refl s
  · next conn hconn => exact sends_timer fd hconn rfl ⟨⟨rfl, rfl, rfl⟩, rfl, rfl, rfl⟩

theorem sends_onSessionTimer : Sends Quiet s (s.onSessionTimer fd) := by
  unfold onSessionTimer
  split
  · exact .refl s
  · next conn hconn => exact sends_timer fd hconn rfl ⟨⟨rfl, rfl, rfl⟩, rfl, rfl, rfl⟩

end

/-- A new connection: a client that has said nothing yet, with a serial number of its own. -/
structure Accepted (fd : Int) (s s' : App) : Prop where
  profile_eq : ∀ fd', s'.profile? fd' =
    if fd = fd' then some ⟨0, false, [], 0, s.nextSerial⟩ else s.profile? fd'
  sessions_eq : s'.runtimeSessions = s.runtimeSessions
  pidToFds_eq : s'.pidToFds = s.pidToFds
  registry_eq : s'.registry = s.registry
  watchNotifier_eq : s'.watchNotifier = s.watchNotifier
  topicManager_eq : s'.topicManager = s.topicManager
  pidWatchers_eq : s'.pidWatchers = s.pidWatchers
  watcherToPids_eq : s'.watcherToPids = s.watcherToPids
  nextSerial_eq : s'.nextSerial = s.nextSerial + 1
  trace_eq : s'.trace = .accepted fd s.nextSerial :: s.trace

theorem accepted_onClientAccepted (hdead : ¬ s.Alive fd) (plan : List SendOutcome) :
    Accepted fd s ({ s with plan }.onClientAccepted fd) := by
  have hentered : { s with plan }.onClientAccepted fd =
      { { s with plan }.setClient fd
          { ClientConnection.init s.nextSerial with sessionGeneration := 1, helloTimer := some 1 } with
        nextSerial := s.nextSerial + 1
        trace := .accepted fd s.nextSerial :: s.trace } :=
    if_neg fun hthere => hdead (contains_iff.mp hthere)
  rw [hentered]
  refine ⟨fun fd' => ?_, rfl, rfl, rfl, rfl, rfl, rfl, rfl, rfl, rfl⟩
  simp only [profile?, setClient, Table.getElem?_insert]
  split_ifs
  · rfl
  · rfl

/-- Everything an event can be: nothing or something nested, a new connection, or a message of a
    client. -/
theorem step_cases (s : App) (event : Event × List SendOutcome) :
    Nested Quiet s (s.step event) ∨
      (∃ fd : Nat, event.1 = .accept fd ∧ ¬ s.Alive fd ∧ Accepted fd s (s.step event)) ∨
      ∃ fd msg conn, event.1 = .message fd msg ∧ s.clients[fd]? = some conn ∧
        s.step event = { s with plan := event.2 }.dispatchMessage fd conn msg := by
  obtain ⟨event, plan⟩ := event
  have hplan : Nested Quiet s { s with plan } := .touch (touches_plan s plan)
  cases event with
  | accept fd =>
    by_cases halive : s.Alive fd
    · refine .inl ?_
      have hsame : s.step (.accept fd, plan) = { s with plan } :=
        if_pos (contains_iff.mpr halive)
      rw [hsame]
      exact hplan
    · exact .inr (.inl ⟨fd, rfl, halive, accepted_onClientAccepted halive plan⟩)
  | message fd msg =>
    rcases hconn : s.clients[fd]? with _ | conn
    · refine .inl ?_
      have hsame : s.step (.message fd msg, plan) = { s with plan } := by
        simp only [App.step, App.handle, hconn]
      rw [hsame]
      exact hplan
    · refine .inr (.inr ⟨fd, msg, conn, rfl, hconn, ?_⟩)
      simp only [App.step, App.handle, hconn]
  | disconnect fd => exact .inl (hplan.trans (closeClient_spec fd true _).1)
  | writable fd => exact .inl (hplan.trans (nested_onClientWritable _ fd))
  | helloTimer fd => exact .inl (hplan.trans (sends_onHelloTimer _ fd).nested)
  | sessionTimer fd => exact .inl (hplan.trans (sends_onSessionTimer _ fd).nested)

/-- What everything nested, every new connection and every change keeps, an event keeps. -/
theorem step_invariant (hnested : ∀ s s', Nested AnyMessage s s' → P s → P s')
    (haccept : ∀ s s' (fd : Nat), ¬ s.Alive fd → Accepted fd s s' → P s → P s')
    (heffect : ∀ s fd (e : Effect), e.Fits fd s → P s → P (e.apply fd s))
    (event : Event × List SendOutcome) (hs : P s) : P (s.step event) := by
  rcases step_cases s event with hmade | ⟨fd, -, hdead, haccepted⟩ | ⟨fd, msg, conn, -, hconn, hmade⟩
  · exact hnested _ _ (hmade.mono anyMessage_of_quiet) hs
  · exact haccept _ _ fd hdead haccepted hs
  have hplan := hnested _ _ (.touch (touches_plan s event.2)) hs
  have hsteps := steps_dispatchMessage { s with plan := event.2 } fd msg hconn
  rw [hmade]
  exact (hsteps.mono (fun _ _ _ => trivial) fun _ => id).invariant hnested
    (fun s' e _ => heffect s' fd e) hplan

/-! ### Queues -/

section
variable {R : List TraceEntry → Int → ClientConnection → Prop} (hR : QueueRule R)
include hR

/-- The changes of the handlers leave the queues alone, a hello apart. -/
theorem QueueRule.effect (e : Effect) (hfits : e.Fits fd s) (h : HoldsAt R s) :
    HoldsAt R (e.apply fd s) := by
  cases e with
  | register info => exact hR.record (fun _ => rfl) h
  | watch watchId filters => exact hR.record (fun _ => rfl) h
  | publish topic info idlHash => exact hR.record (fun _ => rfl) h
  | subscribe topic selector =>
    simp only [Effect.apply]
    split_ifs
    · exact hR.record (fun _ => rfl) h
    · exact h
  | greet conn info runtimeId interval timeout =>
    exact hR.enterSession info runtimeId interval timeout hfits h
  | _ => exact h

theorem Steps.holdsAt (h : Steps ok kinds fd s s') (hs : HoldsAt R s) : HoldsAt R s' := by
  induction h with
  | sends h => exact h.holdsAt hR hs
  | effect e _ hfits => exact hR.effect e hfits hs
  | trans _ _ ih ih' => exact ih' (ih hs)

/-- Every step but a flush keeps the property; a flush keeps it of the other connections when it closes
    its own. -/
theorem QueueRule.perform {step : SendStep × List SendOutcome} (h : HoldsAt R s)
    (hflush : ∀ fd, step.1 = .event (.writable fd) → HoldsAt R ({ s with plan := step.2 }.onClientWritable fd)) :
    HoldsAt R (s.perform step) := by
  obtain ⟨_ | ⟨fd, sequence, out⟩, plan⟩ := step
  · next event =>
    cases event with
    | accept fd => exact hR.onClientAccepted fd (s := { s with plan }) h
    | message fd msg =>
      simp only [App.perform, App.step, App.handle]
      split
      · exact h
      · next conn hconn => exact (steps_dispatchMessage { s with plan } fd msg hconn).holdsAt hR h
    | disconnect fd => exact hR.closeClient fd true (HoldsAt.but h fd)
    | writable fd => exact hflush fd rfl
    | helloTimer fd => exact (sends_onHelloTimer { s with plan } fd).holdsAt hR h
    | sessionTimer fd => exact (sends_onSessionTimer { s with plan } fd).holdsAt hR h
  · exact hR.send (s := { s with plan }) fd sequence out h

end

theorem holdsAt_init (R : List TraceEntry → Int → ClientConnection → Prop)
    (heartbeatTimeoutMs smIncarnationId : UInt32) :
    HoldsAt R (App.init heartbeatTimeoutMs smIncarnationId) := by
  intro fd conn hconn
  simp [App.init] at hconn

/-- Every event of a run meets a condition on the state before it. -/
def App.RunsUnder (condition : App → Event × List SendOutcome → Prop) :
    App → List (Event × List SendOutcome) → Prop
  | _, [] => True
  | s, event :: events => condition s event ∧ RunsUnder condition (s.step event) events

instance (condition : App → Event × List SendOutcome → Prop)
    [∀ s event, Decidable (condition s event)] :
    ∀ s events, Decidable (App.RunsUnder condition s events)
  | _, [] => .isTrue trivial
  | s, event :: events =>
    have := instDecidableRunsUnder condition (s.step event) events
    inferInstanceAs (Decidable (condition s event ∧ App.RunsUnder condition (s.step event) events))

/-- What holds at first and is kept by every event that meets the condition holds after the run. -/
theorem run_invariant {condition : App → Event × List SendOutcome → Prop}
    (hstep : ∀ s event, P s → condition s event → P (s.step event)) (hs : P s)
    {events : List (Event × List SendOutcome)} (hruns : s.RunsUnder condition events) :
    P (s.run events) := by
  induction events generalizing s with
  | nil => exact hs
  | cons event events ih => exact ih (hstep s event hs hruns.1) hruns.2

theorem App.RunsUnder.mono {condition condition' : App → Event × List SendOutcome → Prop}
    (himp : ∀ s event, condition s event → condition' s event)
    {events : List (Event × List SendOutcome)} (h : s.RunsUnder condition events) :
    s.RunsUnder condition' events := by
  induction events generalizing s with
  | nil => trivial
  | cons event events ih => exact ⟨himp s event h.1, ih h.2⟩

/-- The states that a run leads to. -/
def App.Reachable (s : App) : Prop :=
  ∃ heartbeatTimeoutMs smIncarnationId events,
    s = (App.init heartbeatTimeoutMs smIncarnationId).run events

/-- What holds at first and is kept by every event holds in every reachable state. -/
theorem App.Reachable.invariant
    (hinit : ∀ heartbeatTimeoutMs smIncarnationId, P (App.init heartbeatTimeoutMs smIncarnationId))
    (hstep : ∀ {s : App} event, P s → P (s.step event)) (h : s.Reachable) : P s := by
  obtain ⟨heartbeatTimeoutMs, smIncarnationId, events, rfl⟩ := h
  exact List.foldlRecOn events _ (hinit _ _) fun _ hs event _ => hstep event hs

/-- The message a client sends with what it writes as the payload. -/
def clientMessage (type : UInt16) (sequence : UInt32) (write : Buffer → Bool × Buffer) :
    ReceivedMessage :=
  let payload := (write Buffer.init).2.bytes
  if h : payload.length ≤ maxMessageSize - messageHeaderSize then ⟨type, sequence, payload, h⟩
  else ⟨type, sequence, [], Nat.zero_le _⟩

/-- The hello of a runtime of one host. -/
def helloMessage (pid : UInt32) (runtimeId : Bytes) (incarnationId : UInt32) : ReceivedMessage :=
  clientMessage MessageType.runtimeHello 1
    (serializeRuntimeInfo .succeeds
      { pid, processName := [], role := [], logLevel := logInfo, diagCapabilities := 0, services := []
        sessionVersion := sessionProtocolVersion, runtimeId, incarnationId
        heartbeatIntervalMs := defaultHeartbeatInterval
        requestedTimeoutMs := defaultHeartbeatTimeout, hostId := [] })

/-- The registration of an instance that has nothing but its name. -/
def registerMessage (name : Bytes) : ReceivedMessage :=
  clientMessage MessageType.register 2
    (serializeServiceInfo .succeeds { ServiceInfo.init with name })

end OmniBinder.ServiceManager
