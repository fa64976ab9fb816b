import MeerklyHeadless.GatewayHandlers
import Mathlib.Tactic

/-!
# Which connection a frame goes out on

A handler outlives the connection that delivered its job and reads the
client's socket only when it replies, so a result goes out on whatever
connection is current then.  The results below say exactly when that is the
handler's own connection, and that the register frame comes first on a
connection as long as it is.
-/

namespace MeerklyHeadless

open ExceptionState
open JsonSchema
open TransitionRuns

def WireFrame.isRegister : WireFrame → Bool
  | register _ => true
  | result _ _ => false

def System.sentOn (system : System) (conn : ℕ) : List Sent :=
  system.wire.filter fun sent => sent.conn = conn

def Delivered (config : GatewayConfig) (system : System) (handler : Handler) : Prop :=
  ∃ raw message, (handler.conn, raw) ∈ system.received ∧
    DeliversJob config raw handler.job message

def ResultsOnOwnConnection (config : GatewayConfig) (system : System) : Prop :=
  ∀ sent ∈ system.wire, ∀ index frame, sent.frame = .result index frame →
    ∃ handler, system.handlers[index]? = some handler ∧
      handler.conn = sent.conn ∧ Delivered config system handler

def RegisterFirst (system : System) : Prop :=
  ∀ conn, ∀ sent ∈ (system.sentOn conn).head?, sent.frame.isRegister

/-- A handler that calls `_send` does so while the current connection is its
own, or there is none, or its transport is down. -/
def RepliesInTime (config : GatewayConfig) (system : System) (action : Action) : Prop :=
  ∀ index handler result exit conn, action.handler? = some index →
    system.handlers[index]? = some handler →
      Reply config system handler action result exit →
        system.openSocket = some conn → conn = handler.conn

/-! ## What is never undone -/

structure System.Grows (system after : System) : Prop where
  wire : ∃ new, after.wire = system.wire ++ new
  received : system.received ⊆ after.received
  handlers : ∀ (index : ℕ) (handler : Handler),
    system.handlers[index]? = some handler →
      ∃ next : Handler, after.handlers[index]? = some next ∧
        next.conn = handler.conn ∧ next.job = handler.job
  connections : system.connections ≤ after.connections

theorem HandlerMoved.grows {config : GatewayConfig} {system after : System}
    {action : Action} {index : ℕ} {handler next : Handler}
    (hfound : system.handlers[index]? = some handler)
    (hmoved : HandlerMoved config system action index handler after next) :
    system.Grows after where
  wire := by
    rcases hmoved.wire with ⟨hsame, _⟩ | ⟨_, _, _, _, _, hone⟩
    · exact ⟨[], by simp [hsame]⟩
    · exact ⟨_, hone⟩
  received := by rw [hmoved.sameLoop.received]; exact List.Subset.refl _
  handlers := by
    intro other found hother
    rw [hmoved.handlers]
    by_cases heq : index = other
    · subst heq
      obtain ⟨hlength, _⟩ := List.getElem?_eq_some_iff.mp hfound
      rw [hfound, Option.some.injEq] at hother
      subst hother
      exact ⟨next, List.getElem?_set_self hlength, hmoved.conn, hmoved.job⟩
    · exact ⟨found, by rw [List.getElem?_set_ne heq, hother], rfl, rfl⟩
  connections := hmoved.sameLoop.connections.ge

theorem LoopMoved.grows {config : GatewayConfig} {system after : System}
    (hmoved : LoopMoved config system after) : system.Grows after where
  wire := by
    rcases hmoved.wire with hsame | ⟨_, _, _, _, hone⟩
    · exact ⟨[], by simp [hsame]⟩
    · exact ⟨_, hone⟩
  received := by
    rcases hmoved.handlers with ⟨_, hsame⟩ | ⟨conn, raw, hreceived⟩
    · rw [hsame]; exact List.Subset.refl _
    · rw [hreceived.received]; exact List.subset_append_left _ _
  handlers := by
    intro index handler hfound
    have hkept : ∀ fresh, (system.handlers ++ fresh)[index]? = some handler := by
      intro fresh
      obtain ⟨hlength, _⟩ := List.getElem?_eq_some_iff.mp hfound
      rw [List.getElem?_append_left hlength, hfound]
    rcases hmoved.handlers with ⟨hsame, _⟩ | ⟨conn, raw, hreceived⟩
    · exact ⟨handler, by rw [hsame, hfound], rfl, rfl⟩
    · rcases hreceived.handlers with hsame | ⟨job, message, _, hone⟩
      · exact ⟨handler, by rw [hsame, hfound], rfl, rfl⟩
      · exact ⟨handler, by rw [hone]; exact hkept _, rfl, rfl⟩
  connections := hmoved.connections

theorem step_grows {config : GatewayConfig} {system after : System}
    {action : Action} (hstep : step config system action = some after) :
    system.Grows after := by
  cases step_moved hstep with
  | handler _ hfound hmoved => exact hmoved.grows hfound
  | loop _ hmoved => exact hmoved.grows

/-! ## Connections, unconditionally -/

def System.Registered (system : System) (conn : ℕ) : Prop :=
  ∃ sent ∈ system.wire, sent.conn = conn ∧ sent.frame.isRegister

theorem System.Grows.registered {system after : System} (h : system.Grows after)
    {conn : ℕ} (hregistered : system.Registered conn) : after.Registered conn := by
  obtain ⟨sent, hsent, hconn, hframe⟩ := hregistered
  obtain ⟨new, hwire⟩ := h.wire
  exact ⟨sent, by rw [hwire]; exact List.mem_append_left _ hsent, hconn, hframe⟩

/-- Every frame and every handler belongs to a connection that was opened,
and a handler exists only on a connection that was registered on. -/
structure ConnectionsKept (config : GatewayConfig) (system : System) : Prop where
  socket : ∀ conn ∈ system.client.socket, conn < system.connections
  token : ∀ attempt conn, system.loop = .readingToken attempt conn →
    conn < system.connections ∧ ∀ handler ∈ system.handlers, handler.conn ≠ conn
  registering : ∀ attempt conn, system.loop = .registering attempt conn →
    system.Registered conn
  receiving : ∀ attempt conn, system.loop = .receiving attempt conn →
    system.Registered conn
  wireConn : ∀ sent ∈ system.wire, sent.conn < system.connections
  wireIndex : ∀ sent ∈ system.wire, ∀ index frame,
    sent.frame = .result index frame → index < system.handlers.length
  handlers : ∀ handler ∈ system.handlers,
    system.Registered handler.conn ∧ Delivered config system handler

theorem ConnectionsKept.initial (config : GatewayConfig) :
    ConnectionsKept config System.initial where
  socket := by simp [System.initial, Client.initial]
  token := by simp [System.initial]
  registering := by simp [System.initial]
  receiving := by simp [System.initial]
  wireConn := by simp [System.initial]
  wireIndex := by simp [System.initial]
  handlers := by simp [System.initial]

section Steps

variable {config : GatewayConfig} {system after : System} {action : Action}

theorem ConnectionsKept.conn_lt (h : ConnectionsKept config system) {conn : ℕ}
    (hregistered : system.Registered conn) : conn < system.connections := by
  obtain ⟨sent, hsent, rfl, _⟩ := hregistered
  exact h.wireConn sent hsent

theorem Delivered.of_subset {handler next : Handler}
    (hreceived : system.received ⊆ after.received)
    (hconn : next.conn = handler.conn) (hjob : next.job = handler.job)
    (h : Delivered config system handler) : Delivered config after next := by
  obtain ⟨raw, message, hmem, hdelivers⟩ := h
  refine ⟨raw, message, ?_, ?_⟩
  · rw [hconn]
    exact hreceived hmem
  · rwa [hjob]

theorem openSocket_eq_some {conn : ℕ} (h : system.openSocket = some conn) :
    system.client.socket = some conn ∧ system.live = some conn := by
  unfold System.openSocket at h
  split at h
  · simp at h
  · simp only [Option.ite_none_right_eq_some, Option.some.injEq] at h
    obtain ⟨hlive, rfl⟩ := h
    exact ⟨by assumption, hlive⟩

theorem ConnectionsKept.handlerMoved {index : ℕ} {handler next : Handler}
    (h : ConnectionsKept config system)
    (hfound : system.handlers[index]? = some handler)
    (hmoved : HandlerMoved config system action index handler after next) :
    ConnectionsKept config after where
  socket := by
    rw [hmoved.sameLoop.client, hmoved.sameLoop.connections]
    exact h.socket
  token := by
    intro attempt conn hloop
    rw [hmoved.sameLoop.loop] at hloop
    obtain ⟨hconn, hothers⟩ := h.token attempt conn hloop
    refine ⟨by rwa [hmoved.sameLoop.connections], ?_⟩
    intro other hother
    rw [hmoved.handlers] at hother
    rcases List.mem_or_eq_of_mem_set hother with hold | rfl
    · exact hothers other hold
    · rw [hmoved.conn]
      exact hothers handler (List.mem_of_getElem? hfound)
  registering := by
    rw [hmoved.sameLoop.loop]
    exact fun attempt conn hloop =>
      (hmoved.grows hfound).registered (h.registering attempt conn hloop)
  receiving := by
    rw [hmoved.sameLoop.loop]
    exact fun attempt conn hloop =>
      (hmoved.grows hfound).registered (h.receiving attempt conn hloop)
  wireConn := by
    rw [hmoved.sameLoop.connections]
    rcases hmoved.wire with ⟨hsame, _⟩ | ⟨result, exit, conn, _, hopen, hone⟩
    · rw [hsame]
      exact h.wireConn
    · intro sent hsent
      rw [hone, List.mem_append, List.mem_singleton] at hsent
      rcases hsent with hold | rfl
      · exact h.wireConn sent hold
      · exact h.socket conn (openSocket_eq_some hopen).1
  wireIndex := by
    have hlength : after.handlers.length = system.handlers.length := by
      rw [hmoved.handlers, List.length_set]
    rw [hlength]
    rcases hmoved.wire with ⟨hsame, _⟩ | ⟨result, exit, conn, _, _, hone⟩
    · rw [hsame]
      exact h.wireIndex
    · intro sent hsent other frame hframe
      rw [hone, List.mem_append, List.mem_singleton] at hsent
      rcases hsent with hold | rfl
      · exact h.wireIndex sent hold other frame hframe
      · simp only [WireFrame.result.injEq] at hframe
        rw [← hframe.1]
        exact (List.getElem?_eq_some_iff.mp hfound).1
  handlers := by
    intro other hother
    have hgrows := hmoved.grows hfound
    rw [hmoved.handlers] at hother
    rcases List.mem_or_eq_of_mem_set hother with hold | rfl
    · obtain ⟨hregistered, hdelivered⟩ := h.handlers other hold
      exact ⟨hgrows.registered hregistered,
        hdelivered.of_subset hgrows.received rfl rfl⟩
    · obtain ⟨hregistered, hdelivered⟩ :=
        h.handlers handler (List.mem_of_getElem? hfound)
      refine ⟨?_, hdelivered.of_subset hgrows.received hmoved.conn hmoved.job⟩
      rw [hmoved.conn]
      exact hgrows.registered hregistered

theorem ConnectionsKept.loopMoved (h : ConnectionsKept config system)
    (hmoved : LoopMoved config system after) : ConnectionsKept config after where
  socket := by
    intro conn hsocket
    rcases hmoved.socket conn hsocket with hold | ⟨_, hnew⟩
    · exact (h.socket conn hold).trans_le hmoved.connections
    · exact hnew
  token := by
    intro attempt conn hloop
    obtain ⟨_, hhandlers, hphase⟩ := hmoved.readingToken attempt conn hloop
    rw [hhandlers]
    rcases hphase with hold | ⟨rfl, hnew⟩
    · obtain ⟨hconn, hothers⟩ := h.token attempt conn hold
      exact ⟨hconn.trans_le hmoved.connections, hothers⟩
    · refine ⟨hnew, ?_⟩
      intro handler hhandler
      exact (h.conn_lt (h.handlers handler hhandler).1).ne
  registering := by
    intro attempt conn hloop
    rcases hmoved.registering attempt conn hloop with hold | ⟨_, frame, hwire⟩
    · exact hmoved.grows.registered (h.registering attempt conn hold)
    · exact ⟨_, by rw [hwire]; exact List.mem_append_right _ (List.mem_singleton_self _),
        rfl, rfl⟩
  receiving := by
    intro attempt conn hloop
    rcases hmoved.receiving attempt conn hloop with hold | hold
    · exact hmoved.grows.registered (h.receiving attempt conn hold)
    · exact hmoved.grows.registered (h.registering attempt conn hold)
  wireConn := by
    intro sent hsent
    refine lt_of_lt_of_le ?_ hmoved.connections
    rcases hmoved.wire with hsame | ⟨attempt, conn, frame, hloop, hone⟩
    · rw [hsame] at hsent
      exact h.wireConn sent hsent
    · rw [hone, List.mem_append, List.mem_singleton] at hsent
      rcases hsent with hold | rfl
      · exact h.wireConn sent hold
      · exact (h.token attempt conn hloop).1
  wireIndex := by
    intro sent hsent index frame hframe
    have hlength : system.handlers.length ≤ after.handlers.length := by
      rcases hmoved.handlers with ⟨hsame, _⟩ | ⟨conn, raw, hreceived⟩
      · rw [hsame]
      · rcases hreceived.handlers with hsame | ⟨job, message, _, hone⟩
        · rw [hsame]
        · simp [hone]
    refine lt_of_lt_of_le ?_ hlength
    rcases hmoved.wire with hsame | ⟨attempt, conn, register, _, hone⟩
    · rw [hsame] at hsent
      exact h.wireIndex sent hsent index frame hframe
    · rw [hone, List.mem_append, List.mem_singleton] at hsent
      rcases hsent with hold | rfl
      · exact h.wireIndex sent hold index frame hframe
      · simp at hframe
  handlers := by
    have hgrows := hmoved.grows
    have hkept : ∀ handler ∈ system.handlers,
        after.Registered handler.conn ∧ Delivered config after handler := by
      intro handler hhandler
      obtain ⟨hregistered, hdelivered⟩ := h.handlers handler hhandler
      exact ⟨hgrows.registered hregistered,
        hdelivered.of_subset hgrows.received rfl rfl⟩
    rcases hmoved.handlers with ⟨hsame, _⟩ | ⟨conn, raw, ⟨hloop, hreceived, hspawned⟩⟩
    · rw [hsame]
      exact hkept
    · rcases hspawned with hsame | ⟨job, message, hdelivers, hone⟩
      · rw [hsame]
        exact hkept
      · intro handler hhandler
        rw [hone, List.mem_append, List.mem_singleton] at hhandler
        rcases hhandler with hold | rfl
        · exact hkept handler hold
        · obtain ⟨attempt, hphase⟩ := hloop
          refine ⟨hgrows.registered (h.receiving attempt conn hphase), raw, message,
            ?_, hdelivers⟩
          rw [hreceived]
          exact List.mem_append_right _ (List.mem_singleton_self _)

theorem ConnectionsKept.step (h : ConnectionsKept config system)
    (hstep : step config system action = some after) : ConnectionsKept config after := by
  cases step_moved hstep with
  | handler _ hfound hmoved => exact h.handlerMoved hfound hmoved
  | loop _ hmoved => exact h.loopMoved hmoved

/-! ## Replies in time -/

theorem ResultsOnOwnConnection.of_grows (h : ResultsOnOwnConnection config system)
    (hgrows : system.Grows after)
    (hnew : ∀ sent ∈ after.wire, sent ∉ system.wire → ∀ index frame,
      sent.frame = .result index frame →
        ∃ handler, after.handlers[index]? = some handler ∧
          handler.conn = sent.conn ∧ Delivered config after handler) :
    ResultsOnOwnConnection config after := by
  intro sent hsent index frame hframe
  by_cases hold : sent ∈ system.wire
  · obtain ⟨handler, hfound, hconn, hdelivered⟩ := h sent hold index frame hframe
    obtain ⟨next, hnext, hnextConn, hnextJob⟩ := hgrows.handlers index handler hfound
    exact ⟨next, hnext, hnextConn.trans hconn,
      hdelivered.of_subset hgrows.received hnextConn hnextJob⟩
  · exact hnew sent hsent hold index frame hframe

theorem ResultsOnOwnConnection.step (h : ResultsOnOwnConnection config system)
    (hkept : ConnectionsKept config system)
    (hmeets : RepliesInTime config system action)
    (hstep : step config system action = some after) :
    ResultsOnOwnConnection config after := by
  have hgrows := step_grows hstep
  refine h.of_grows hgrows ?_
  intro sent hsent hfresh index frame hframe
  cases step_moved hstep with
  | loop _ hmoved =>
      rcases hmoved.wire with hsame | ⟨_, conn, register, _, hone⟩
      · rw [hsame] at hsent
        exact absurd hsent hfresh
      · rw [hone, List.mem_append, List.mem_singleton] at hsent
        rcases hsent with hold | rfl
        · exact absurd hold hfresh
        · simp at hframe
  | @handler found handler next hresumes hfound hmoved =>
      rcases hmoved.wire with ⟨hsame, _⟩ | ⟨result, exit, conn, hreply, hopen, hone⟩
      · rw [hsame] at hsent
        exact absurd hsent hfresh
      · rw [hone, List.mem_append, List.mem_singleton] at hsent
        rcases hsent with hold | rfl
        · exact absurd hold hfresh
        · simp only [WireFrame.result.injEq] at hframe
          obtain ⟨rfl, _⟩ := hframe
          obtain ⟨next', hnext, hnextConn, hnextJob⟩ :=
            hgrows.handlers found handler hfound
          have hown : conn = handler.conn :=
            hmeets found handler result exit conn hresumes hfound hreply hopen
          have hdelivered := (hkept.handlers handler (List.mem_of_getElem? hfound)).2
          exact ⟨next', hnext, hnextConn.trans hown.symm,
            hdelivered.of_subset hgrows.received hnextConn hnextJob⟩

/-- A frame on the wrong connection stays on the wire, so the property of a
later state implies that of every earlier one. -/
theorem ResultsOnOwnConnection.before (h : ResultsOnOwnConnection config after)
    (hkept : ConnectionsKept config system)
    (hstep : MeerklyHeadless.step config system action = some after) :
    ResultsOnOwnConnection config system := by
  intro sent hsent index frame hframe
  have hgrows := step_grows hstep
  obtain ⟨new, hwire⟩ := hgrows.wire
  have hafter : sent ∈ after.wire := by
    rw [hwire]
    exact List.mem_append_left _ hsent
  obtain ⟨next, hnext, hconn, _⟩ := h sent hafter index frame hframe
  have hindex := hkept.wireIndex sent hsent index frame hframe
  have hfound := List.getElem?_eq_getElem hindex
  obtain ⟨next', hnext', hconn', _⟩ := hgrows.handlers index _ hfound
  rw [hnext, Option.some.injEq] at hnext'
  subst hnext'
  exact ⟨_, hfound, hconn'.symm.trans hconn,
    (hkept.handlers _ (List.getElem_mem hindex)).2⟩

theorem ResultsOnOwnConnection.repliesInTime
    (h : ResultsOnOwnConnection config after)
    (hstep : MeerklyHeadless.step config system action = some after) :
    RepliesInTime config system action := by
  intro index handler result exit conn hresumes hfound hreply hopen
  cases step_moved hstep with
  | loop hnone _ => simp [hresumes] at hnone
  | @handler index' handler' next hresumes' hfound' hmoved =>
      rw [hresumes, Option.some.injEq] at hresumes'
      subst hresumes'
      rw [hfound, Option.some.injEq] at hfound'
      subst hfound'
      rcases hmoved.wire with ⟨_, hsilent⟩ | ⟨sentResult, _, sentConn, _, hopen', hone⟩
      · simp [hsilent result exit hreply] at hopen
      · rw [hopen, Option.some.injEq] at hopen'
        subst hopen'
        have hsent : (⟨conn, .result index
            (buildResult handler.job.jobId sentResult)⟩ : Sent) ∈ after.wire := by
          rw [hone]
          exact List.mem_append_right _ (List.mem_singleton_self _)
        obtain ⟨own, hown, hconn, _⟩ := h _ hsent index _ rfl
        obtain ⟨hlength, _⟩ := List.getElem?_eq_some_iff.mp hfound
        rw [hmoved.handlers, List.getElem?_set_self hlength, Option.some.injEq] at hown
        subst hown
        rw [← hmoved.conn]
        exact hconn.symm

/-! ## The first frame of a connection -/

structure FirstFrames (system : System) : Prop where
  registerFirst : RegisterFirst system
  freshToken : ∀ attempt conn, system.loop = .readingToken attempt conn →
    system.sentOn conn = []

theorem sentOn_append {sent : Sent} (hwire : after.wire = system.wire ++ [sent])
    (conn : ℕ) :
    after.sentOn conn =
      system.sentOn conn ++ if sent.conn = conn then [sent] else [] := by
  simp only [System.sentOn, hwire, List.filter_append]
  by_cases hconn : sent.conn = conn <;> simp [hconn]

theorem FirstFrames.append (h : FirstFrames system) {sent : Sent}
    (hwire : after.wire = system.wire ++ [sent])
    (hfirst : system.sentOn sent.conn = [] → sent.frame.isRegister) :
    RegisterFirst after := by
  intro conn first hfound
  rw [sentOn_append hwire] at hfound
  cases hold : system.sentOn conn with
  | cons head rest =>
      have hhead := h.registerFirst conn head (by simp [hold])
      simp only [hold, List.cons_append, List.head?_cons, Option.mem_def,
        Option.some.injEq] at hfound
      rwa [← hfound]
  | nil =>
      by_cases hconn : sent.conn = conn
      · subst hconn
        have hsame : sent = first := by simpa [hold] using hfound
        rw [← hsame]
        exact hfirst hold
      · simp [hold, hconn] at hfound

theorem System.Registered.sentOn_ne_nil {conn : ℕ} (h : system.Registered conn) :
    system.sentOn conn ≠ [] := by
  obtain ⟨sent, hsent, hconn, _⟩ := h
  apply List.ne_nil_of_mem
  exact List.mem_filter.mpr ⟨hsent, by simpa using hconn⟩

theorem FirstFrames.step (h : FirstFrames system)
    (hkept : ConnectionsKept config system)
    (hmeets : RepliesInTime config system action)
    (hstep : step config system action = some after) : FirstFrames after := by
  cases step_moved hstep with
  | loop _ hmoved =>
      constructor
      · rcases hmoved.wire with hsame | ⟨attempt, conn, frame, hloop, hone⟩
        · unfold RegisterFirst System.sentOn
          rw [hsame]
          exact h.registerFirst
        · exact h.append hone fun _ => rfl
      · intro attempt conn hloop
        obtain ⟨hwire, _, hphase⟩ := hmoved.readingToken attempt conn hloop
        have hsame : after.sentOn conn = system.sentOn conn := by
          simp only [System.sentOn, hwire]
        rw [hsame]
        rcases hphase with hold | ⟨hnew, _⟩
        · exact h.freshToken attempt conn hold
        · apply List.filter_eq_nil_iff.mpr
          intro sent hsent
          have hlt := hkept.wireConn sent hsent
          simp only [decide_eq_true_eq]
          omega
  | @handler index handler next hresumes hfound hmoved =>
      rcases hmoved.wire with ⟨hsame, _⟩ | ⟨result, exit, conn, hreply, hopen, hone⟩
      · constructor
        · unfold RegisterFirst System.sentOn
          rw [hsame]
          exact h.registerFirst
        · rw [hmoved.sameLoop.loop]
          unfold System.sentOn
          rw [hsame]
          exact h.freshToken
      · have hown : conn = handler.conn :=
          hmeets index handler result exit conn hresumes hfound hreply hopen
        have hmem := List.mem_of_getElem? hfound
        constructor
        · refine h.append hone fun hempty => ?_
          rw [hown] at hempty
          exact absurd hempty (hkept.handlers handler hmem).1.sentOn_ne_nil
        · rw [hmoved.sameLoop.loop]
          intro attempt reading hloop
          have hother := (hkept.token attempt reading hloop).2 handler hmem
          rw [sentOn_append hone, h.freshToken attempt reading hloop]
          simp [hown, hother]

end Steps

/-! ## Whole runs -/

section Runs

variable {config : GatewayConfig} {system : System} {trace : List Action}

theorem connectionsKept_of_run {Meets : System → Action → Prop}
    (hrun : Run (step config) Meets System.initial trace system) :
    ConnectionsKept config system :=
  hrun.invariant (.initial config) fun _ _ _ h _ hstep => h.step hstep

theorem run_repliesInTime_of_results
    (hrun : Run (step config) Always System.initial trace system)
    (hresults : ResultsOnOwnConnection config system) :
    Run (step config) (RepliesInTime config) System.initial trace system := by
  induction hrun with
  | nil => exact .nil
  | snoc hbefore _ hstep ih =>
      have hkept := connectionsKept_of_run hbefore
      exact .snoc (ih (hresults.before hkept hstep)) (hresults.repliesInTime hstep) hstep

theorem firstFrames_of_run
    (hrun : Run (step config) (RepliesInTime config) System.initial trace system) :
    ResultsOnOwnConnection config system ∧ FirstFrames system := by
  induction hrun with
  | nil =>
      refine ⟨by simp [ResultsOnOwnConnection, System.initial], ?_, ?_⟩
      · simp [RegisterFirst, System.sentOn, System.initial]
      · simp [System.sentOn, System.initial]
  | snoc hbefore hmeets hstep ih =>
      have hkept := connectionsKept_of_run hbefore
      exact ⟨ih.1.step hkept hmeets hstep, ih.2.step hkept hmeets hstep⟩

/-- In a run, results stay on the connections of their jobs and registers come
first exactly when every reply is in time. -/
theorem results_on_own_connection_iff (config : GatewayConfig) (trace : List Action)
    (system : System)
    (hrun : Run (step config) Always System.initial trace system) :
    ResultsOnOwnConnection config system ∧ RegisterFirst system ↔
      Run (step config) (RepliesInTime config) System.initial trace system := by
  constructor
  · rintro ⟨hresults, _⟩
    exact run_repliesInTime_of_results hrun hresults
  · intro htimely
    obtain ⟨hresults, hfirst⟩ := firstFrames_of_run htimely
    exact ⟨hresults, hfirst.registerFirst⟩

end Runs

theorem results_on_own_connection_one_job :
    ∃ system, Run (step exampleConfig) Always System.initial servedTrace system ∧
      (ResultsOnOwnConnection exampleConfig system ∧ RegisterFirst system ↔
        Run (step exampleConfig) (RepliesInTime exampleConfig) System.initial
          servedTrace system) := by
  obtain ⟨system, hexec, _⟩ := servedTrace_runs
  have hrun := run_of_exec hexec
  exact ⟨system, hrun,
    results_on_own_connection_iff exampleConfig servedTrace system hrun⟩

/-! ## A result that overtakes the register frame of the next connection -/

/-- The connection drops while the job is being crawled, the loop reconnects,
and the crawl ends before the token has been read. -/
def reconnectTrace : List Action :=
  [.start, .connected, .tokenRead none, .registerSent, .frame exampleFetchText,
    .handlerBegins 0, .resolved 0 exampleResolver, .drop, .received true, .left,
    .slept, .connected, .crawled 0 (.ok exampleResult)]

def WireFrame.handler? : WireFrame → Option ℕ
  | register _ => none
  | result index _ => some index

theorem reconnectTrace_wire :
    ∃ system, exec (step exampleConfig) System.initial reconnectTrace = some system ∧
      system.wire.map (fun sent => (sent.conn, sent.frame.handler?)) =
        [(0, none), (1, some 0)] ∧
      system.handlers.map Handler.conn = [0] := by
  have hwire : (exec (step exampleConfig) System.initial reconnectTrace).map
      (fun system => (system.wire.map (fun sent => (sent.conn, sent.frame.handler?)),
        system.handlers.map Handler.conn)) =
      some ([(0, none), (1, some 0)], [0]) := by
    decide +kernel
  simpa [Option.map_eq_some_iff] using hwire

theorem result_sent_on_later_connection :
    ∃ system, Reachable (step exampleConfig) Always System.initial system ∧
      ¬ResultsOnOwnConnection exampleConfig system ∧ ¬RegisterFirst system := by
  obtain ⟨system, hexec, hwire, hconns⟩ := reconnectTrace_wire
  refine ⟨system, reachable_of_exec hexec, ?_, ?_⟩
  all_goals
    obtain ⟨⟨conn₀, frame₀⟩, rest, hlist, hfirst, hrest⟩ := List.map_eq_cons_iff.mp hwire
    obtain ⟨⟨conn₁, frame₁⟩, tail, rfl, hsecond, htail⟩ := List.map_eq_cons_iff.mp hrest
    rw [List.map_eq_nil_iff] at htail
    subst htail
    simp only [Prod.mk.injEq] at hfirst hsecond
    obtain ⟨rfl, _⟩ := hfirst
    obtain ⟨rfl, hresult⟩ := hsecond
  · intro hresults
    cases frame₁ with
    | register frame => simp [WireFrame.handler?] at hresult
    | result index frame =>
        simp only [WireFrame.handler?, Option.some.injEq] at hresult
        subst hresult
        obtain ⟨handler, hfound, hconn, _⟩ :=
          hresults ⟨1, .result 0 frame⟩ (by simp [hlist]) 0 frame rfl
        have hmapped : (system.handlers.map Handler.conn)[0]? = some handler.conn := by
          simp [hfound]
        simp [hconns, hconn] at hmapped
  · intro hfirst
    have hregister := hfirst 1 ⟨1, frame₁⟩ (by simp [System.sentOn, hlist])
    cases frame₁ <;> simp [WireFrame.handler?, WireFrame.isRegister] at hresult hregister

end MeerklyHeadless
