/-
Module: OmniBinder.Proofs.SessionKeys
Purpose: The session table against the session keys of the connections. A hello moves its connection to
  a new key and leaves the old key in the table, so the two agree in the runs in which no connection
  changes its key. A key always leads to the one connection that has it.
Trusted boundary: none
Main exports: Sessions, KeysOverlap, overlapping_identities_close_each_other, one_connection_per_runtime
-/
import OmniBinder.Proofs.SmSteps
import OmniBinder.Runtime.DataPlane

namespace OmniBinder.ServiceManager

open Option

/-- Every session leads to a client that has its key. -/
def Sessions (s : App) : Prop :=
  ∀ (k : Bytes) (fd : Int), s.runtimeSessions[k]? = some fd →
    k ≠ [] ∧ ∃ p, s.profile? fd = some p ∧ p.sessionKey = k

theorem makeRuntimeSessionKey_ne_nil (hostId runtimeId : Bytes) :
    makeRuntimeSessionKey hostId runtimeId ≠ [] := by
  simp [makeRuntimeSessionKey]

variable {s s' : App}

theorem Sessions.of_same (h : Sessions s) (hprofile : ∀ fd, s'.profile? fd = s.profile? fd)
    (hsessions : s'.runtimeSessions = s.runtimeSessions) : Sessions s' := by
  intro k fd hk
  rw [hsessions] at hk
  rw [hprofile]
  exact h k fd hk

variable {fd : Int} {conn : ClientConnection}

/-- The session of a connection that is closed goes with it, because its own key leads to it. -/
theorem sessions_detach (h : Sessions s) (hconn : s.clients[fd]? = some conn) (notify : Bool) :
    Sessions (s.detach fd conn notify).2 := by
  have hold : ∀ (k : Bytes) (fd' : Int), (s.detach fd conn notify).2.runtimeSessions[k]? = some fd' →
      s.runtimeSessions[k]? = some fd' ∧ ¬ (k ≠ [] ∧ conn.sessionKey = k ∧ fd' = fd) := by
    intro k fd' hk
    simp only [App.detach] at hk
    split_ifs at hk with herased
    · obtain ⟨hkey, hk⟩ := Table.of_erase hk
      exact ⟨hk, fun hall => hkey hall.2.1⟩
    · refine ⟨hk, ?_⟩
      rintro ⟨hne, rfl, rfl⟩
      exact herased ⟨by simpa using hne, hk⟩
  intro k fd' hk
  obtain ⟨hk, hother⟩ := hold k fd' hk
  obtain ⟨hne, p, hp, hkey⟩ := h k fd' hk
  have hfd : fd ≠ fd' := by
    rintro rfl
    rw [App.profile?, hconn, map_some, Option.some.injEq] at hp
    exact hother ⟨hne, by rw [← hkey, ← hp]; rfl, rfl⟩
  exact ⟨hne, p, by rw [profile?_detach, if_neg hfd, hp], hkey⟩

theorem Nested.sessions {ok : ServiceRegistry → Outgoing → Prop} (h : Nested ok s s')
    (hs : Sessions s) : Sessions s' := by
  induction h with
  | refl s => exact hs
  | trans _ _ ih ih' => exact ih' (ih hs)
  | touch htouch => exact hs.of_same htouch.profile_eq htouch.runtimeSessions_eq
  | hand _ _ _ _ _ => exact hs.of_same (fun _ => rfl) rfl
  | unwatch _ _ _ => exact hs.of_same (fun _ => rfl) rfl
  | @close s s₁ s₂ fd conn notify hconn _ _ _ _ ih ih' =>
    have h₁ := ih (sessions_detach hs hconn notify)
    obtain ⟨hclients, -, hsessions, -, -, -, -⟩ := forget_frame s₁ fd conn
    refine ih' (h₁.of_same (fun fd' => ?_) hsessions)
    rw [App.profile?, App.profile?, App.forgotten, hclients]

/-- A hello that keeps the key of its connection, or gives it its first one. -/
theorem sessions_greet {info : RuntimeInfo} {runtimeId : Bytes} (hs : Sessions s)
    (hconn : s.clients[fd]? = some conn)
    (hkept : conn.sessionKey = [] ∨ conn.sessionKey = makeRuntimeSessionKey info.hostId runtimeId)
    (h : Greeted fd conn info runtimeId s s') : Sessions s' := by
  intro k fd' hk
  rw [h.profile_eq]
  rcases Table.of_insert (h.sessions_eq ▸ hk) with ⟨rfl, rfl⟩ | ⟨hkey, hk⟩
  · exact ⟨makeRuntimeSessionKey_ne_nil _ _, _, if_pos rfl, rfl⟩
  obtain ⟨hne, p, hp, hpkey⟩ := hs k fd' hk
  refine ⟨hne, p, ?_, hpkey⟩
  have hfd : fd ≠ fd' := by
    rintro rfl
    rw [App.profile?, hconn, map_some, Option.some.injEq] at hp
    have hown : conn.sessionKey = k := by rw [← hpkey, ← hp]; rfl
    exact hkept.elim (fun hnil => hne (hown ▸ hnil)) fun hsame => hkey (hsame ▸ hown)
  rw [if_neg hfd, hp]

/-- An accepted hello does not change a session key that its connection already has. -/
def App.keepsSessionKey (s : App) (event : Event × List SendOutcome) : Bool :=
  match event.1 with
  | .message fd msg =>
    match acceptedHello msg, (s.clients[fd]? : Option ClientConnection) with
    | some (info, runtimeId), some conn => msg.type ≠ MessageType.runtimeHello ||
        conn.sessionKey = [] || conn.sessionKey = makeRuntimeSessionKey info.hostId runtimeId
    | _, _ => true
  | _ => true

theorem sessions_handleRuntimeHello {msg : ReceivedMessage} (hs : Sessions s)
    (hconn : s.clients[fd]? = some conn)
    (hkept : ∀ info runtimeId, acceptedHello msg = some (info, runtimeId) → conn.sessionKey = [] ∨ conn.sessionKey = makeRuntimeSessionKey info.hostId runtimeId)
    : Sessions (s.handleRuntimeHello fd msg) := by
  rcases handleRuntimeHello_cases s fd msg with
    ⟨-, ack, hmade⟩ | ⟨info, runtimeId, haccepted, hsuperseded⟩
  · rw [hmade]
    exact (sends_reply (fun _ _ => id) s fd _ _ rfl).nested.sessions hs
  have hfirst := (sends_supersede s fd quiet_of_unprompted
    (makeRuntimeSessionKey info.hostId runtimeId) info.incarnationId).nested
  rcases hsuperseded with ⟨-, hmade⟩ | ⟨conn', interval, timeout, ack, hconn', hmade⟩
  · rw [hmade]
    exact hfirst.sessions hs
  -- the connection is the same one after the close of another
  have hprofile := hfirst.shrinks.profile fd conn'.profile
    (by rw [App.profile?, hconn', map_some])
  rw [App.profile?, hconn, map_some, Option.some.injEq] at hprofile
  have hkey : conn'.sessionKey = conn.sessionKey := congrArg ClientProfile.sessionKey hprofile.symm
  have hgreeted := sessions_greet (hfirst.sessions hs) hconn' (hkey ▸ hkept info runtimeId haccepted)
    (greeted_enterSession _ fd conn' info runtimeId interval timeout)
  rw [hmade]
  exact (sends_ite (sends_closeClient quiet_of_unprompted _ fd true)
    (sends_reply (fun _ _ => id) _ fd _ _ rfl)).nested.sessions hgreeted

theorem sessions_step {event : Event × List SendOutcome} (hs : Sessions s)
    (hkeeps : s.keepsSessionKey event = true) : Sessions (s.step event) := by
  rcases step_cases s event with
    hnested | ⟨fd, -, hdead, haccepted⟩ | ⟨fd, msg, conn, hevent, hconn, hmade⟩
  · exact hnested.sessions hs
  · intro k fd' hk
    rw [haccepted.sessions_eq] at hk
    obtain ⟨hne, p, hp, hkey⟩ := hs k fd' hk
    have hfd : (fd : Int) ≠ fd' := fun hsame =>
      hdead (App.alive_iff_profile.mpr ⟨p, hsame ▸ hp⟩)
    exact ⟨hne, p, by rw [haccepted.profile_eq, if_neg hfd, hp], hkey⟩
  · have hplan : Sessions { s with plan := event.2 } := hs.of_same (fun _ => rfl) rfl
    rw [hmade]
    by_cases hhello : msg.type = MessageType.runtimeHello
    · rw [dispatchMessage_runtimeHello hhello]
      exact sessions_handleRuntimeHello hplan hconn fun info runtimeId haccepted =>
        by simpa [App.keepsSessionKey, hevent, haccepted, hconn, hhello] using hkeeps
    · refine (steps_dispatchMessage { s with plan := event.2 } fd msg hconn).invariant
        (fun _ _ h => h.sessions) (fun _ e hkind _ hs => ?_) hplan
      cases e with
      | greet => exact absurd hkind hhello
      | _ => exact hs.of_same (fun _ => rfl) rfl

theorem sessions_init (heartbeatTimeoutMs smIncarnationId : UInt32) :
    Sessions (App.init heartbeatTimeoutMs smIncarnationId) := by
  intro k fd hk
  simp [App.init] at hk

/-- What a hello closes to take a session over is a client with the key of the hello. -/
theorem Sessions.supersede_cases (h : Sessions s) (fd : Int) (k : Bytes) (incarnationId : UInt32) :
    s.supersede fd k incarnationId = s ∨
      ∃ (old : Int) (conn : ClientConnection) (notify : Bool), old ≠ fd ∧ s.clients[old]? = some conn ∧
        conn.sessionKey = k ∧ s.supersede fd k incarnationId = s.closeClient old notify := by
  unfold App.supersede
  split
  · exact .inl rfl
  next old hold =>
  split_ifs with hsame
  · exact .inl rfl
  · obtain ⟨-, p, hp, hown⟩ := h k old hold
    obtain ⟨conn, hconn, rfl⟩ := map_eq_some_iff.mp hp
    exact .inr ⟨old, conn, _, hsame, hconn, hown, rfl⟩

/-- In every run in which no connection changes its session key: a session leads to a client that has
    its key, and what a hello closes to take the session over is a client with the key of the hello. -/
theorem sessions_lead_to_their_key (heartbeatTimeoutMs smIncarnationId : UInt32)
    (events : List (Event × List SendOutcome))
    (hruns : (App.init heartbeatTimeoutMs smIncarnationId).RunsUnder
      (fun s event => s.keepsSessionKey event = true) events) :
    let s := (App.init heartbeatTimeoutMs smIncarnationId).run events
    (∀ (k : Bytes) (fd : Int), s.runtimeSessions[k]? = some fd →
      ∃ conn : ClientConnection, s.clients[fd]? = some conn ∧ conn.sessionKey = k) ∧
    ∀ fd k incarnationId, s.supersede fd k incarnationId = s ∨
      ∃ (old : Int) (conn : ClientConnection) (notify : Bool), old ≠ fd ∧ s.clients[old]? = some conn ∧
        conn.sessionKey = k ∧ s.supersede fd k incarnationId = s.closeClient old notify := by
  intro s
  have hs : Sessions s := run_invariant (fun _ _ => sessions_step) (sessions_init _ _) hruns
  refine ⟨fun k fd hk => ?_, hs.supersede_cases⟩
  obtain ⟨-, p, hp, hkey⟩ := hs k fd hk
  obtain ⟨conn, hconn, rfl⟩ := map_eq_some_iff.mp hp
  exact ⟨conn, hconn, hkey⟩

theorem sessions_lead_to_their_key_after_takeover :
    let events : List (Event × List SendOutcome) :=
      [(.accept 4, []), (.message 4 (helloMessage 10 (ascii "a") 1), []), (.accept 5, []),
        (.message 5 (helloMessage 11 (ascii "a") 2), [])]
    let s := (App.init 0 7).run events
    (App.init 0 7).RunsUnder (fun s event => s.keepsSessionKey event = true) events ∧
      s.runtimeSessions[makeRuntimeSessionKey [] (ascii "a")]? = some 5 ∧
      (∃ conn : ClientConnection, s.clients[(5 : Int)]? = some conn ∧
        conn.sessionKey = makeRuntimeSessionKey [] (ascii "a")) := by
  intro events s
  have hruns : (App.init 0 7).RunsUnder (fun s event => s.keepsSessionKey event = true) events := by
    decide +kernel
  have hsession : s.runtimeSessions[makeRuntimeSessionKey [] (ascii "a")]? = some 5 := by
    decide +kernel
  exact ⟨hruns, hsession, (sessions_lead_to_their_key 0 7 events hruns).1 _ _ hsession⟩

/-- A second hello with another identity leaves the first session in the table. The next runtime with
    the first identity then closes the connection, whose key is another one by now. -/
theorem stale_session_after_second_hello :
    let s := (App.init 0 7).run
      [(.accept 4, []), (.message 4 (helloMessage 10 (ascii "a") 1), []),
        (.message 4 (helloMessage 10 (ascii "b") 1), []), (.accept 5, [])]
    let s' := s.step (.message 5 (helloMessage 11 (ascii "a") 1), [])
    s.runtimeSessions[makeRuntimeSessionKey [] (ascii "a")]? = some 4 ∧
      (s.clients[(4 : Int)]? : Option ClientConnection).map (·.sessionKey) =
        some (makeRuntimeSessionKey [] (ascii "b")) ∧
      makeRuntimeSessionKey [] (ascii "b") ≠ makeRuntimeSessionKey [] (ascii "a") ∧
      s.Alive 4 ∧ ¬ s'.Alive 4 := by
  decide +kernel

end OmniBinder.ServiceManager

namespace OmniBinder

open List Table

/-! ### The key -/

/-- One host id goes on, behind the separator, with what the runtime id of the other begins with. -/
def KeysOverlap (hostId runtimeId hostId' runtimeId' : Bytes) : Prop :=
  (∃ middle, hostId' = hostId ++ 0x1F :: middle ∧ runtimeId = middle ++ 0x1F :: runtimeId') ∨
    ∃ middle, hostId = hostId' ++ 0x1F :: middle ∧ runtimeId' = middle ++ 0x1F :: runtimeId

theorem makeRuntimeSessionKey_eq_iff {hostId runtimeId hostId' runtimeId' : Bytes} :
    makeRuntimeSessionKey hostId runtimeId = makeRuntimeSessionKey hostId' runtimeId' ↔
      (hostId = hostId' ∧ runtimeId = runtimeId') ∨
        KeysOverlap hostId runtimeId hostId' runtimeId' := by
  unfold makeRuntimeSessionKey KeysOverlap
  constructor
  · intro h
    rcases append_eq_append_iff.mp h with ⟨rest, hhost, hruntime⟩ | ⟨rest, hhost, hruntime⟩
    · cases rest with
      | nil =>
        rw [append_nil] at hhost
        exact .inl ⟨hhost.symm, (List.cons.inj hruntime).2⟩
      | cons byte middle =>
        obtain ⟨rfl, htail⟩ := List.cons.inj hruntime
        exact .inr (.inl ⟨middle, hhost, htail⟩)
    · cases rest with
      | nil =>
        rw [append_nil] at hhost
        exact .inl ⟨hhost, (List.cons.inj hruntime).2.symm⟩
      | cons byte middle =>
        obtain ⟨rfl, htail⟩ := List.cons.inj hruntime
        exact .inr (.inr ⟨middle, hhost, htail⟩)
  · rintro (⟨rfl, rfl⟩ | ⟨middle, rfl, rfl⟩ | ⟨middle, rfl, rfl⟩)
    · rfl
    · rw [append_assoc, cons_append]
    · rw [append_assoc, cons_append]

theorem not_keysOverlap_of_not_mem {hostId runtimeId hostId' runtimeId' : Bytes}
    (h : 0x1F ∉ hostId) (h' : 0x1F ∉ hostId') : ¬ KeysOverlap hostId runtimeId hostId' runtimeId' := by
  rintro (⟨middle, rfl, -⟩ | ⟨middle, rfl, -⟩)
  · exact h' (by simp)
  · exact h (by simp)

/-! ### The ServiceManager -/

namespace ServiceManager

/-- The key of a connection is made of its own identity. -/
def OwnKey (_ : List TraceEntry) (_ : Int) (conn : ClientConnection) : Prop :=
  conn.sessionKey = [] ∨ conn.sessionKey = makeRuntimeSessionKey conn.hostId conn.runtimeId

theorem queueRule_ownKey : QueueRule OwnKey where
  skip _ _ h := h
  same hsame h := by
    unfold OwnKey
    rw [hsame.sessionKey_eq, hsame.hostId_eq, hsame.runtimeId_eq]
    exact h
  greeted _ _ _ _ _ := .inr rfl
  fresh _ := .inl rfl
  unserialized _ h := h
  queued _ _ _ h := h
  sent _ _ h := h
  partly _ _ _ h := h

theorem ownKey_onClientWritable {s : App} (fd : Int) (h : HoldsAt OwnKey s) :
    HoldsAt OwnKey (s.onClientWritable fd) := by
  cases hconn : s.clients[fd]? with
  | none =>
    rw [App.onClientWritable, hconn]
    exact h
  | some conn =>
    have hown : OwnKey s.trace fd conn := h fd conn hconn
    simp only [App.onClientWritable, hconn]
    split_ifs
    · refine queueRule_ownKey.closeClient fd true (HoldsAt.but ?_ fd)
      exact HoldsBut.setClient (h.but fd) hown
    · exact HoldsBut.setClient (h.but fd) hown
    · exact HoldsBut.setClient (h.but fd) hown

theorem ownKey_of_reachable (h : s.Reachable) : HoldsAt OwnKey s := by
  refine h.invariant (holdsAt_init _) fun {s} event hs => ?_
  change HoldsAt OwnKey (s.perform (.event event.1, event.2))
  refine queueRule_ownKey.perform hs fun fd _ => ?_
  exact ownKey_onClientWritable (s := { s with plan := event.2 }) fd hs

/-! ### One connection for a runtime -/

/-- Every client that has a session key is the one that the key leads to. -/
def Held (s : App) : Prop :=
  ∀ fd p, s.profile? fd = some p → p.sessionKey ≠ [] → s.runtimeSessions[p.sessionKey]? = some fd

theorem Held.of_same (h : Held s) (hprofile : ∀ fd, s'.profile? fd = s.profile? fd)
    (hsessions : s'.runtimeSessions = s.runtimeSessions) : Held s' := by
  intro fd p hp
  rw [hsessions]
  exact h fd p (hprofile fd ▸ hp)

/-- The key that goes with a connection led to it, so no other client has it. -/
theorem held_detach (h : Held s) (notify : Bool) : Held (s.detach fd conn notify).2 := by
  intro fd' p hp hne
  rw [profile?_detach] at hp
  split_ifs at hp with hfd
  have hkey := h fd' p hp hne
  simp only [App.detach]
  split_ifs with herased
  · refine (Table.getElem?_erase_of_ne _ fun hsame => hfd ?_).trans hkey
    exact Option.some.inj (herased.2.symm.trans (hsame ▸ hkey))
  · exact hkey

theorem Nested.held {ok : ServiceRegistry → Outgoing → Prop} (h : Nested ok s s') (hs : Held s) :
    Held s' := by
  induction h with
  | refl s => exact hs
  | trans _ _ ih ih' => exact ih' (ih hs)
  | touch htouch => exact hs.of_same htouch.profile_eq htouch.runtimeSessions_eq
  | hand _ _ _ _ _ => exact hs.of_same (fun _ => rfl) rfl
  | unwatch _ _ _ => exact hs.of_same (fun _ => rfl) rfl
  | @close s s₁ s₂ fd conn notify _ _ _ _ _ ih ih' =>
    obtain ⟨hclients, -, hsessions, -, -, -, -⟩ := forget_frame s₁ fd conn
    refine ih' ((ih (held_detach hs notify)).of_same (fun fd' => ?_) hsessions)
    rw [App.profile?, App.profile?, App.forgotten, hclients]

/-- A hello takes its key over: whoever had it is closed first. -/
theorem held_handleRuntimeHello (hs : Held s) (fd : Int) (msg : ReceivedMessage) :
    Held (s.handleRuntimeHello fd msg) := by
  rcases handleRuntimeHello_cases s fd msg with ⟨-, ack, hmade⟩ | ⟨info, runtimeId, -, hsuperseded⟩
  · rw [hmade]
    exact (sends_reply (fun _ _ => id) s fd _ _ rfl).nested.held hs
  have hfirst := (sends_supersede s fd quiet_of_unprompted
    (makeRuntimeSessionKey info.hostId runtimeId) info.incarnationId).nested
  rcases hsuperseded with ⟨-, hmade⟩ | ⟨conn, interval, timeout, ack, -, hmade⟩
  · rw [hmade]
    exact hfirst.held hs
  rw [hmade]
  refine (sends_ite (sends_closeClient quiet_of_unprompted _ fd true)
    (sends_reply (fun _ _ => id) _ fd _ _ rfl)).nested.held fun fd' p hp hne => ?_
  have hgreeted := greeted_enterSession (s.supersede fd (makeRuntimeSessionKey info.hostId runtimeId)
    info.incarnationId) fd conn info runtimeId interval timeout
  rw [Effect.apply, hgreeted.sessions_eq]
  rw [Effect.apply, hgreeted.profile_eq] at hp
  split_ifs at hp with hfd
  · cases hp
    exact hfd ▸ Table.getElem?_insert_self _ _ _
  have hkey := hfirst.held hs fd' p hp hne
  refine (Table.getElem?_insert_of_ne _ (fun hsame => ?_) _).trans hkey
  -- the client would have been the one that the hello closes
  have hold := hfirst.shrinks.session _ _ hkey
  refine absurd (App.alive_iff_profile.mpr ⟨p, hp⟩) ?_
  rw [← hsame] at hold
  simp only [App.supersede, hold, if_neg (Ne.symm hfd)]
  exact (closeClient_spec fd' _ s).2

theorem held_step (event : Event × List SendOutcome) (hs : Held s) : Held (s.step event) := by
  rcases step_cases s event with hnested | ⟨fd, -, -, haccepted⟩ | ⟨fd, msg, conn, -, hconn, hmade⟩
  · exact hnested.held hs
  · intro fd' p hp hne
    rw [haccepted.profile_eq] at hp
    rw [haccepted.sessions_eq]
    split_ifs at hp
    · cases hp
      exact absurd rfl hne
    · exact hs fd' p hp hne
  · have hplan : Held { s with plan := event.2 } := hs.of_same (fun _ => rfl) rfl
    rw [hmade]
    by_cases hhello : msg.type = MessageType.runtimeHello
    · rw [dispatchMessage_runtimeHello hhello]
      exact held_handleRuntimeHello hplan fd msg
    · refine (steps_dispatchMessage { s with plan := event.2 } fd msg hconn).invariant
        (fun _ _ h => h.held) (fun _ e hkind _ hs => ?_) hplan
      cases e with
      | greet => exact absurd hkind hhello
      | _ => exact hs.of_same (fun _ => rfl) rfl

/-- In every run a connection with a session key is the one that the session leads to, and no two
    connections have said hello for the same runtime of the same host. -/
theorem one_connection_per_runtime (heartbeatTimeoutMs smIncarnationId : UInt32)
    (events : List (Event × List SendOutcome)) :
    let s := (App.init heartbeatTimeoutMs smIncarnationId).run events
    Held s ∧ ∀ (fd fd' : Int) (conn conn' : ClientConnection), s.clients[fd]? = some conn →
      s.clients[fd']? = some conn' → conn.sessionKey ≠ [] → conn'.sessionKey ≠ [] →
      conn.hostId = conn'.hostId → conn.runtimeId = conn'.runtimeId → fd = fd' := by
  intro s
  have hreachable : s.Reachable := ⟨_, _, events, rfl⟩
  have hheld : Held s := hreachable.invariant
    (fun _ _ fd p hp => by simp [App.init, App.profile?] at hp) held_step
  refine ⟨hheld, fun fd fd' conn conn' hconn hconn' hne hne' hhost hruntime => ?_⟩
  have hown := (ownKey_of_reachable hreachable fd conn hconn).resolve_left hne
  have hown' := (ownKey_of_reachable hreachable fd' conn' hconn').resolve_left hne'
  have hkey : conn.sessionKey = conn'.sessionKey := by rw [hown, hown', hhost, hruntime]
  have hleads := hheld fd conn.profile (by rw [App.profile?, hconn, Option.map_some]) hne
  have hleads' := hheld fd' conn'.profile (by rw [App.profile?, hconn', Option.map_some]) hne'
  exact Option.some.inj (hleads.symm.trans ((congrArg (s.runtimeSessions[·]?) hkey).trans hleads'))

end ServiceManager

variable {name : Bytes} {entry : ServiceEntry} {clientId : Int}

/-! ### A service -/

namespace DataPlane

/-- The session of a client is under its key as long as it is known, and the key is made of its own
    identity. -/
structure EntrySessions (entry : ServiceEntry) : Prop where
  session_of_key : ∀ (k : Bytes) (clientId : Int), entry.runtimeSessions[k]? = some clientId →
    ∃ session : ClientSession, entry.clientSessions[clientId]? = some session ∧
      session.active = true ∧ session.sessionKey = k
  own_key : ∀ (clientId : Int) (session : ClientSession),
    entry.clientSessions[clientId]? = some session → session.active = true →
      session.sessionKey = makeRuntimeSessionKey session.hostId session.runtimeId

def SessionsKept (st : DataPlane) : Prop :=
  ∀ (name : Bytes) (entry : ServiceEntry), st.localServices[name]? = some entry → EntrySessions entry

section
variable {st st' : DataPlane}

theorem SessionsKept.of_same (h : st.SessionsKept) (hsame : st'.localServices = st.localServices) :
    st'.SessionsKept := by
  intro name entry hentry
  exact h name entry (hsame ▸ hentry)

theorem SessionsKept.insert (h : st.SessionsKept) (hentry : EntrySessions entry)
    (hinsert : st'.localServices = st.localServices.insert name entry) : st'.SessionsKept := by
  intro name' entry' hentry'
  rcases of_insert (hinsert ▸ hentry') with ⟨-, rfl⟩ | ⟨-, hold⟩
  · exact hentry
  · exact h name' entry' hold

theorem entrySessions_empty (id : Nat) : EntrySessions ⟨id, ∅, ∅, ∅⟩ :=
  ⟨fun k clientId hk => by simp at hk, fun clientId session hsession => by simp at hsession⟩

theorem SessionsKept.registerService (h : st.SessionsKept) (name : Bytes) :
    (st.registerService name).SessionsKept := by
  unfold DataPlane.registerService
  split_ifs
  · exact h
  · exact h.insert (entrySessions_empty _) rfl

theorem localServices_detachClientsFromEntry (st : DataPlane) (entry : ServiceEntry) :
    (st.detachClientsFromEntry entry).localServices = st.localServices := by
  unfold detachClientsFromEntry
  generalize entry.clients.toList = clients
  induction clients generalizing st with
  | nil => rfl
  | cons client clients ih => exact ih _

theorem SessionsKept.unregisterService (h : st.SessionsKept) (name : Bytes) :
    (st.unregisterService name).SessionsKept := by
  unfold DataPlane.unregisterService
  split
  · exact h
  next entry _ =>
  have herased : DataPlane.SessionsKept { st with localServices := st.localServices.erase name } :=
    fun name' entry' hentry' => h name' entry' (of_erase hentry').2
  exact herased.of_same (localServices_detachClientsFromEntry _ entry)

/-- A client gets a session, and a key leads to it or where it led before. -/
theorem EntrySessions.set (h : EntrySessions entry) {session : ClientSession} {keys : Table Bytes Int}
    (hown : session.active = true →
      session.sessionKey = makeRuntimeSessionKey session.hostId session.runtimeId)
    (hkeys : ∀ (k : Bytes) (c : Int), keys[k]? = some c → if clientId = c then session.active = true ∧
      session.sessionKey = k else entry.runtimeSessions[k]? = some c) (id : Nat) (clients : Table Int Nat) :
    EntrySessions ⟨id, clients, entry.clientSessions.insert clientId session, keys⟩ := by
  refine ⟨fun k c hk => ?_, fun c session' hsession hactive => ?_⟩
  · have hkey := hkeys k c hk
    split_ifs at hkey with hc
    · exact ⟨session, hc ▸ getElem?_insert_self .., hkey⟩
    · rw [getElem?_insert_of_ne _ hc]
      exact h.session_of_key k c hkey
  · rcases of_insert hsession with ⟨-, rfl⟩ | ⟨-, hsession⟩
    · exact hown hactive
    · exact h.own_key c session' hsession hactive

/-- A new client has no session under any key. -/
theorem SessionsKept.onServiceClientAccepted (h : st.SessionsKept)
    (hfresh : ∀ entry : ServiceEntry, st.localServices[name]? = some entry → entry.clientSessions[clientId]? = none)
    : (st.onServiceClientAccepted name clientId).SessionsKept := by
  unfold DataPlane.onServiceClientAccepted
  split
  · exact h
  next entry hentry =>
  refine h.insert ((h name entry hentry).set (fun hactive => by cases hactive) (fun k c hk => ?_) _ _) rfl
  rwa [if_neg]
  rintro rfl
  obtain ⟨session, hsession, -⟩ := (h name entry hentry).session_of_key k _ hk
  exact nomatch (hfresh entry hentry).symm.trans hsession

/-- The key of a client goes with it, and no other key leads to it. -/
theorem EntrySessions.forget (h : EntrySessions entry) {c : Int} {k : Bytes}
    (hk : (forgetRuntimeSession entry clientId)[k]? = some c) :
    entry.runtimeSessions[k]? = some c ∧ c ≠ clientId := by
  -- a session under the key of the client is the one that is forgotten
  have hkey : ∀ {session : ClientSession}, entry.clientSessions[clientId]? = some session →
      entry.runtimeSessions[k]? = some clientId →
        session.sessionKey = k ∧ session.sessionKey.isEmpty = false := by
    intro session hsession hold
    obtain ⟨session', hsession', hactive, hown⟩ := h.session_of_key k clientId hold
    cases hsession.symm.trans hsession'
    refine ⟨hown, ?_⟩
    rw [h.own_key clientId session hsession hactive, isEmpty_eq_false_iff]
    exact ServiceManager.makeRuntimeSessionKey_ne_nil _ _
  unfold forgetRuntimeSession at hk
  split at hk
  · next hnone =>
    refine ⟨hk, ?_⟩
    rintro rfl
    obtain ⟨session, hsession, -⟩ := h.session_of_key k c hk
    rw [hnone] at hsession
    cases hsession
  · next session hsession =>
    split_ifs at hk with hempty hown
    · refine ⟨hk, ?_⟩
      rintro rfl
      exact Bool.false_ne_true ((hkey hsession hk).2.symm.trans hempty)
    · obtain ⟨hsame, hk⟩ := of_erase hk
      refine ⟨hk, ?_⟩
      rintro rfl
      exact hsame (hkey hsession hk).1
    · refine ⟨hk, ?_⟩
      rintro rfl
      exact hown ((hkey hsession hk).1 ▸ hk)

theorem SessionsKept.onServiceClientDisconnected (h : st.SessionsKept) (name : Bytes) (clientId : Int) :
    (st.onServiceClientDisconnected name clientId).SessionsKept := by
  unfold DataPlane.onServiceClientDisconnected
  split
  · exact h
  next entry hentry =>
  split
  · exact h
  obtain ⟨hkey, hown⟩ := h name entry hentry
  refine h.insert ⟨fun k c hk => ?_, fun c session hsession hactive => ?_⟩ rfl
  · obtain ⟨hold, hother⟩ := (h name entry hentry).forget hk
    obtain ⟨session, hsession, hrest⟩ := hkey k c hold
    exact ⟨session, by rw [getElem?_erase_of_ne _ (Ne.symm hother), hsession], hrest⟩
  · exact hown c session (of_erase hsession).2 hactive

/-! ### Hellos -/

theorem localServices_sendWithBudget (alloc : Allocator) (st : DataPlane) (conn : Nat) (msg : Message)
    (timeoutMs : Nat) (plan : List SocketSend) :
    (st.sendWithBudget alloc conn msg timeoutMs plan).2.localServices = st.localServices := by
  unfold sendWithBudget
  split
  · rfl
  · rfl

section
variable (h : st.SessionsKept) (alloc : Allocator)
include h

theorem SessionsKept.sendHelloAck (name : Bytes)
    (clientId : Int) (hello : SessionHello) (seq : UInt32) (plan : List SocketSend) :
    (st.sendHelloAck alloc name clientId hello seq plan).SessionsKept := by
  unfold DataPlane.sendHelloAck
  split
  · exact h
  next conn _ =>
  simp only
  split_ifs
  · have hsent := localServices_sendWithBudget alloc st conn
      { Message.ofType msgSessionHelloAck seq with
        payload := (serializeSessionHelloAck alloc (st.helloAck hello) Buffer.init).2 }
      st.replySendTimeoutMs plan
    unfold sendOnFd
    generalize st.sendWithBudget alloc conn _ st.replySendTimeoutMs plan = result at hsent ⊢
    obtain ⟨_ | _, st'⟩ := result
    · exact (h.of_same hsent).onServiceClientDisconnected name clientId
    · exact h.of_same hsent
  · exact h.onServiceClientDisconnected name clientId

/-- The session becomes active under the key of the hello. -/
theorem SessionsKept.activateSession (hello : SessionHello) (seq : UInt32) (plan : List SocketSend)
    (hwaiting : ∀ (entry : ServiceEntry) (session : ClientSession), st.localServices[name]? = some entry → entry.clientSessions[clientId]? = some session → session.active = false)
    : (st.activateSession alloc name clientId hello seq plan).SessionsKept := by
  unfold DataPlane.activateSession
  split
  · exact h
  next entry hentry =>
  split
  · exact h
  next old hold =>
  refine SessionsKept.sendHelloAck (h.insert ((h name entry hentry).set (fun _ => rfl)
    (fun k c hk => ?_) _ _) rfl) alloc name clientId hello seq plan
  rcases of_insert hk with ⟨rfl, rfl⟩ | ⟨-, hk⟩
  · rw [if_pos rfl]
    exact ⟨rfl, rfl⟩
  rwa [if_neg]
  rintro rfl
  obtain ⟨session, hsession, hactive, -⟩ := (h name entry hentry).session_of_key k _ hk
  exact Bool.false_ne_true ((hwaiting entry session hentry hsession).symm.trans hactive)

theorem SessionsKept.onSessionHello {session : ClientSession} (msg : Message) (plan : List SocketSend)
    (hentry : st.localServices[name]? = some entry)
    (hsession : entry.clientSessions[clientId]? = some session) :
    (st.onSessionHello alloc name clientId entry session msg plan).SessionsKept := by
  unfold DataPlane.onSessionHello
  split
  · exact h.onServiceClientDisconnected name clientId
  next hello _ =>
  split_ifs with hbad hactive hother
  · exact h.onServiceClientDisconnected name clientId
  · exact h.onServiceClientDisconnected name clientId
  · -- the parameters of the session change, its identity does not
    obtain ⟨hkey, hown⟩ := h name entry hentry
    refine SessionsKept.sendHelloAck (h.insert ((h name entry hentry).set
      (by exact hown clientId session hsession) (fun k c hk => ?_) _ _) rfl) alloc name clientId hello _ plan
    split_ifs with hsame
    · obtain ⟨session', hsession', hrest⟩ := hkey k c hk
      cases hsession.symm.trans (hsame ▸ hsession')
      exact hrest
    · exact hk
  · split
    · next old _ => exact h.onServiceClientDisconnected name old
    · refine h.activateSession alloc hello _ plan fun entry' session' hentry' hsession' => ?_
      cases hentry.symm.trans hentry'
      cases hsession.symm.trans hsession'
      exact Bool.not_eq_true _ ▸ hactive

theorem SessionsKept.handleServiceClientMessage (name : Bytes)
    (clientId : Int) (msg : Message) (plan : List SocketSend) :
    (st.handleServiceClientMessage alloc name clientId msg plan).SessionsKept := by
  have hclosed := h.onServiceClientDisconnected name clientId
  have hheartbeat : ∀ conn session,
      (st.onHeartbeat alloc name clientId conn session msg plan).SessionsKept := by
    intro conn session
    unfold DataPlane.onHeartbeat
    split_ifs
    · exact hclosed
    split
    · exact hclosed
    · split_ifs
      · exact hclosed
      · exact h.of_same (localServices_sendWithBudget alloc st conn _ 0 plan)
  unfold DataPlane.handleServiceClientMessage
  split
  · exact h
  next entry hentry =>
  split
  · exact h
  split
  · exact hclosed
  next session hsession =>
  split_ifs
  · exact hclosed
  · exact h.onSessionHello alloc msg plan hentry hsession
  · exact hheartbeat _ _
  · exact h
  · split
    · exact h
    · exact h
  · exact h

end

/-! ### Runs -/

theorem SessionsKept.disconnectBroken (h : st.SessionsKept) (broken : List (Bytes × Int)) :
    (st.disconnectBroken broken).SessionsKept := by
  cases broken with
  | nil => exact h
  | cons client rest => exact h.onServiceClientDisconnected client.1 client.2

theorem localServices_broadcastToClient (frame : Bytes) (topicId : UInt32)
    (plans : Int → List SocketSend) (progress : DataPlane × List (Bytes × Int)) (clientId : Int) :
    (broadcastToClient frame topicId plans progress clientId).1.localServices =
      progress.1.localServices := by
  obtain ⟨st, broken⟩ := progress
  unfold broadcastToClient
  simp only
  split
  · rfl
  split
  · rfl
  · split
    · next hsent => exact congrArg (fun r : Bool × DataPlane => r.2.localServices) hsent.symm
    · next hsent => exact congrArg (fun r : Bool × DataPlane => r.2.localServices) hsent.symm

theorem SessionsKept.broadcastInternal (h : st.SessionsKept) (alloc : Allocator) (topicId : UInt32)
    (data : Bytes) (plans : Int → List SocketSend) :
    (st.broadcastInternal alloc topicId data plans).SessionsKept := by
  have hloop : ∀ (frame : Bytes) (clients : List Int) (progress : DataPlane × List (Bytes × Int)),
      (clients.foldl (broadcastToClient frame topicId plans) progress).1.localServices =
        progress.1.localServices := by
    intro frame clients
    induction clients with
    | nil => exact fun _ => rfl
    | cons client clients ih =>
      exact fun progress => (ih _).trans (localServices_broadcastToClient _ _ _ _ _)
  unfold DataPlane.broadcastInternal
  split
  · exact h
  · next sendBuf _ => exact (h.of_same (hloop sendBuf.bytes _ (st, []))).disconnectBroken _

theorem SessionsKept.getOrCreateConnectionByKey (h : st.SessionsKept) (key : Bytes)
    (endpoint : Endpoint) (opened : Bool) :
    (st.getOrCreateConnectionByKey key endpoint opened).SessionsKept := by
  have hopen : ∀ {st : DataPlane}, st.SessionsKept →
      (st.openConnection key endpoint opened).SessionsKept := by
    intro st hst
    unfold openConnection
    split_ifs
    · exact hst
    · exact hst
  unfold DataPlane.getOrCreateConnectionByKey
  split
  · split_ifs
    · exact h
    · exact hopen h
  · exact hopen h

theorem SessionsKept.sendMessageWithinTimeout (h : st.SessionsKept) (alloc : Allocator) (key : Bytes)
    (msg : Message) (timeoutMs : Nat) (plan : List SocketSend) :
    (st.sendMessageWithinTimeout alloc key msg timeoutMs plan).SessionsKept := by
  unfold DataPlane.sendMessageWithinTimeout
  split
  · exact h
  split
  · exact h
  split
  · next hsent =>
    exact h.of_same (congrArg (fun r : Bool × DataPlane => r.2.localServices) hsent.symm)
  · next hsent =>
    exact h.of_same (congrArg (fun r : Bool × DataPlane => r.2.localServices) hsent.symm)

/-- A client is accepted under an id that no session has, and a hello that user code interrupted goes on
    for a client that has not said another one. -/
def keepsSessions (st : DataPlane) : DataPlaneEvent → Bool
  | .clientAccepted name clientId =>
    match st.localServices[name]? with
    | none => true
    | some entry => entry.clientSessions[clientId]?.isNone
  | .resume _ _ =>
    match st.pendingCalls with
    | .sessionHello name clientId _ _ :: _ =>
      match st.localServices[name]? with
      | none => true
      | some entry => (entry.clientSessions[clientId]?.map ClientSession.active).getD false == false
    | _ => true
  | _ => true

theorem SessionsKept.resume (h : st.SessionsKept) (alloc : Allocator) (outcome : InvokeOutcome)
    (plan : List SocketSend) (hkeeps : st.keepsSessions (.resume outcome plan) = true) :
    (st.resume alloc outcome plan).SessionsKept := by
  unfold DataPlane.resume
  cases hcalls : st.pendingCalls with
  | nil => exact h
  | cons call calls =>
    have hrest : SessionsKept { st with pendingCalls := calls } := h
    cases call with
    | disconnectBroken broken => exact hrest.disconnectBroken broken
    | invokeReply name entryId clientId seq =>
      simp only [sendInvokeReply]
      split
      · exact hrest
      · next conn _ =>
        exact hrest.of_same (localServices_sendWithBudget alloc _ conn _ st.replySendTimeoutMs plan)
    | sessionHello name clientId hello seq =>
      refine hrest.activateSession alloc hello seq plan fun entry session hentry hsession => ?_
      replace hentry : st.localServices[name]? = some entry := hentry
      simpa [keepsSessions, hcalls, hentry, hsession] using hkeeps
    | subscribeBroadcast name entryId clientId topicId =>
      simp only
      split
      · exact hrest
      unfold addTcpSubscriber
      simp only
      split_ifs
      · exact hrest
      · exact hrest

theorem SessionsKept.step (h : st.SessionsKept) (alloc : Allocator) (event : DataPlaneEvent)
    (hkeeps : st.keepsSessions event = true) : (st.step alloc event).SessionsKept := by
  cases event with
  | registerService name => exact h.registerService name
  | unregisterService name => exact h.unregisterService name
  | publishTopic topicId owner => exact h
  | setReplySendTimeout ms => exact h
  | clientAccepted name clientId =>
    refine h.onServiceClientAccepted fun entry hentry => ?_
    simpa [keepsSessions, hentry] using hkeeps
  | clientMessage name clientId msg plan => exact h.handleServiceClientMessage alloc name clientId msg plan
  | clientDisconnected name clientId => exact h.onServiceClientDisconnected name clientId
  | broadcast topicId data plans => exact h.broadcastInternal alloc topicId data plans
  | resume outcome plan => exact h.resume alloc outcome plan hkeeps
  | connect key endpoint opened => exact h.getOrCreateConnectionByKey key endpoint opened
  | removeConnection key => exact h
  | sendMessage key msg timeoutMs plan => exact h.sendMessageWithinTimeout alloc key msg timeoutMs plan

theorem sessionsKept_run (alloc : Allocator) (incarnationId dataMaxSessionTimeoutMs : UInt32)
    {events : List DataPlaneEvent}
    (hruns : Machine.RunsUnder (DataPlane.step alloc) (fun st event => st.keepsSessions event = true)
      (DataPlane.init incarnationId dataMaxSessionTimeoutMs) events) :
    ((DataPlane.init incarnationId dataMaxSessionTimeoutMs).run alloc events).SessionsKept := by
  refine Machine.run_invariant (fun st event hst hkeeps => hst.step alloc event hkeeps) hruns ?_
  intro name entry hentry
  simp [DataPlane.init] at hentry

/-- The client that a hello supersedes has said hello as the same runtime. -/
theorem EntrySessions.superseded (h : EntrySessions entry) {old : Int} {hello : SessionHello}
    (hapart : ∀ (c : Int) (session : ClientSession), entry.clientSessions[c]? = some session → ¬ KeysOverlap session.hostId session.runtimeId hello.hostId (helloRuntimeId hello))
    (hold : supersededClient entry clientId hello = some old) :
    ∃ session : ClientSession, entry.clientSessions[old]? = some session ∧
      session.hostId = hello.hostId ∧ session.runtimeId = helloRuntimeId hello := by
  have hkey : entry.runtimeSessions[helloSessionKey hello]? = some old := by
    unfold supersededClient at hold
    split at hold
    · cases hold
    next found hfound =>
    split_ifs at hold
    split at hold
    · exact hfound.trans hold
    · split_ifs at hold
      exact hfound.trans hold
  obtain ⟨session, hsession, hactive, hown⟩ := h.session_of_key _ _ hkey
  rw [h.own_key old session hsession hactive, helloSessionKey, makeRuntimeSessionKey_eq_iff] at hown
  rcases hown with ⟨hhost, hruntime⟩ | hoverlap
  · exact ⟨session, hsession, hhost, hruntime⟩
  · exact absurd hoverlap (hapart old session hsession)

end

end DataPlane

/-! ### What a hello closes -/

open ServiceManager in
/-- Two runtimes have different keys exactly if their identities do not overlap. In every run of the
    ServiceManager in which no connection changes its session key, what a hello closes to take its session
    over is a connection of the same runtime, unless its identity overlaps with that of a connection; and
    so it is with the clients of a service. -/
theorem hello_supersedes_own_runtime (alloc : Allocator)
    (heartbeatTimeoutMs smIncarnationId incarnationId dataMaxSessionTimeoutMs : UInt32) :
    (∀ hostId runtimeId hostId' runtimeId' : Bytes, (hostId, runtimeId) ≠ (hostId', runtimeId') →
      (makeRuntimeSessionKey hostId runtimeId ≠ makeRuntimeSessionKey hostId' runtimeId' ↔
        ¬ KeysOverlap hostId runtimeId hostId' runtimeId')) ∧
    (∀ events : List (Event × List SendOutcome),
      (App.init heartbeatTimeoutMs smIncarnationId).RunsUnder
        (fun s event => s.keepsSessionKey event = true) events →
      let s := (App.init heartbeatTimeoutMs smIncarnationId).run events
      ∀ (fd : Int) (hostId runtimeId : Bytes) (incarnationId : UInt32),
        (∀ (fd' : Int) (conn : ClientConnection), s.clients[fd']? = some conn →
          ¬ KeysOverlap conn.hostId conn.runtimeId hostId runtimeId) →
        s.supersede fd (makeRuntimeSessionKey hostId runtimeId) incarnationId = s ∨
          ∃ (old : Int) (conn : ClientConnection) (notify : Bool), s.clients[old]? = some conn ∧
            conn.hostId = hostId ∧ conn.runtimeId = runtimeId ∧
            s.supersede fd (makeRuntimeSessionKey hostId runtimeId) incarnationId =
              s.closeClient old notify) ∧
    ∀ events : List DataPlaneEvent,
      Machine.RunsUnder (DataPlane.step alloc) (fun st event => st.keepsSessions event = true)
        (DataPlane.init incarnationId dataMaxSessionTimeoutMs) events →
      let st := (DataPlane.init incarnationId dataMaxSessionTimeoutMs).run alloc events
      ∀ (name : Bytes) (entry : ServiceEntry), st.localServices[name]? = some entry →
      ∀ (clientId old : Int) (hello : SessionHello),
        (∀ (c : Int) (session : ClientSession), entry.clientSessions[c]? = some session →
          ¬ KeysOverlap session.hostId session.runtimeId hello.hostId
            (DataPlane.helloRuntimeId hello)) →
        DataPlane.supersededClient entry clientId hello = some old →
          ∃ session : ClientSession, entry.clientSessions[old]? = some session ∧
            session.hostId = hello.hostId ∧ session.runtimeId = DataPlane.helloRuntimeId hello := by
  refine ⟨fun hostId runtimeId hostId' runtimeId' hne => ?_, ?_, ?_⟩
  · rw [Ne, makeRuntimeSessionKey_eq_iff, not_or]
    exact and_iff_right fun ⟨hhost, hruntime⟩ => hne (by rw [hhost, hruntime])
  · intro events hruns s fd hostId runtimeId incarnationId hapart
    have hsessions : Sessions s := run_invariant (fun _ _ => sessions_step) (sessions_init _ _) hruns
    have hown : HoldsAt OwnKey s := ownKey_of_reachable ⟨_, _, events, rfl⟩
    refine (hsessions.supersede_cases fd _ incarnationId).imp_right ?_
    rintro ⟨old, conn, notify, -, hconn, hkey, hclosed⟩
    rcases hown old conn hconn with hnil | hmade
    · exact absurd (hkey.symm.trans hnil) (makeRuntimeSessionKey_ne_nil _ _)
    · rw [hmade, makeRuntimeSessionKey_eq_iff] at hkey
      obtain ⟨hhost, hruntime⟩ := hkey.resolve_right (hapart old conn hconn)
      exact ⟨old, conn, notify, hconn, hhost, hruntime, hclosed⟩
  · intro events hruns st name entry hentry clientId old hello hapart hold
    exact (DataPlane.sessionsKept_run alloc _ _ hruns name entry hentry).superseded hapart hold

/-- The hello of a runtime to the ServiceManager. -/
def hostHello (pid : UInt32) (hostId runtimeId : Bytes) : ServiceManager.ReceivedMessage :=
  ServiceManager.clientMessage ServiceManager.MessageType.runtimeHello 1
    (serializeRuntimeInfo .succeeds
      { pid, processName := [], role := [], logLevel := logInfo, diagCapabilities := 0, services := []
        sessionVersion := sessionProtocolVersion, runtimeId, incarnationId := pid
        heartbeatIntervalMs := defaultHeartbeatInterval
        requestedTimeoutMs := defaultHeartbeatTimeout, hostId })

open ServiceManager in
/-- A runtime that starts anew takes the session of its old connection over. -/
theorem restarted_runtime_supersedes_itself :
    let s := (App.init 0 7).run
      [(.accept 4, []), (.message 4 (hostHello 10 (ascii "a") (ascii "c")), []), (.accept 5, [])]
    ∃ (old : Int) (conn : ClientConnection) (notify : Bool), s.clients[old]? = some conn ∧
      conn.hostId = ascii "a" ∧ conn.runtimeId = ascii "c" ∧
      s.supersede 5 (makeRuntimeSessionKey (ascii "a") (ascii "c")) 11 = s.closeClient old notify := by
  intro s
  have hhosts : s.clients.toList.all (fun entry => (0x1F : UInt8) ∉ entry.2.hostId) = true := by
    decide +kernel
  have hclosed : s.Alive 4 ∧
      ¬ (s.supersede 5 (makeRuntimeSessionKey (ascii "a") (ascii "c")) 11).Alive 4 := by
    decide +kernel
  have hown := (hello_supersedes_own_runtime .succeeds 0 7 0 0).2.1 _ (by decide +kernel : (App.init 0 7).RunsUnder
    (fun s event => s.keepsSessionKey event = true)
      [(.accept 4, []), (.message 4 (hostHello 10 (ascii "a") (ascii "c")), []), (.accept 5, [])])
    5 (ascii "a") (ascii "c") 11 fun fd' conn hconn => by
      have hhost := List.all_eq_true.mp hhosts (fd', conn) (Table.mem_toList.mpr hconn)
      exact not_keysOverlap_of_not_mem (of_decide_eq_true hhost) (by decide)
  rcases hown with hsame | hmade
  · exact absurd (hsame ▸ hclosed.1) hclosed.2
  · exact hmade

/-- The hello of a runtime to a service. -/
def serviceHello (pid : UInt32) (hostId runtimeId : Bytes) : Message :=
  DataPlane.messageWith DataPlane.msgSessionHello 1 (serializeSessionHello .succeeds
    { version := sessionProtocolVersion, runtimeId, incarnationId := pid
      heartbeatIntervalMs := defaultHeartbeatInterval, requestedTimeoutMs := defaultHeartbeatTimeout
      capabilities := 0, hostId, processName := [], pid })

/-- Runtime `c` on a host with the separator in its id, and a runtime with the separator in its own id:
    the hello of the second closes the connection of the first, at the ServiceManager and at a
    service. -/
theorem overlapping_identities_close_each_other :
    let longHost := ascii "a" ++ 0x1F :: ascii "b"
    let longRuntime := ascii "b" ++ 0x1F :: ascii "c"
    let s := (ServiceManager.App.init 0 7).run
      [(.accept 4, []), (.message 4 (hostHello 10 longHost (ascii "c")), []), (.accept 5, [])]
    let st := (DataPlane.init 4 0).run .succeeds
      [.registerService (ascii "s"), .clientAccepted (ascii "s") 7,
        .clientMessage (ascii "s") 7 (serviceHello 10 longHost (ascii "c")) [.wrote 36],
        .clientAccepted (ascii "s") 8]
    (longHost, ascii "c") ≠ (ascii "a", longRuntime) ∧
      (s.Alive 4 ∧ ¬ (s.step (.message 5 (hostHello 11 (ascii "a") longRuntime), [])).Alive 4) ∧
      (st.clientConnection (ascii "s") 7 = some 0 ∧
        (st.step .succeeds (.clientMessage (ascii "s") 8 (serviceHello 11 (ascii "a") longRuntime)
          [.wrote 36])).clientConnection (ascii "s") 7 = none) := by
  decide +kernel

end OmniBinder
