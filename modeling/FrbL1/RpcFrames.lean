import FrbL1.Run
/-!
# RpcFrames — how `run()` takes messages off its socket

A message arrives whole, as one or more frames, and `recv` takes one frame at a time; `ZMQ_RCVMORE` says whether the
frame it took last was the last of its message.  The loop of `run()` expects two frames.  Whatever arrives and whenever,
and whatever the handler does, each turn of the loop takes the frames of one message and no others (`inStep_run`).
-/
namespace FrbL1
namespace Frontend

open Trans

variable {Frame : Type}

/-! ## Frames -/

/-- The frames of a message, each with `ZMQ_RCVMORE`. -/
def frames : List Frame → List (Frame × Bool)
  | []      => []
  | f :: fs => (f, !fs.isEmpty) :: frames fs

theorem frames_eq_nil {m : List Frame} : frames m = [] ↔ m = [] := by
  cases m <;> simp [frames]

/-- The requests among the messages: the client, and what it sent. -/
def asRequest : List Frame → Option (Frame × Frame)
  | [client, msg] => some (client, msg)
  | _             => none

def requests (ms : List (List Frame)) : List (Frame × Frame) := ms.filterMap asRequest

theorem requests_append (ms ms' : List (List Frame)) : requests (ms ++ ms') = requests ms ++ requests ms' :=
  List.filterMap_append

theorem asRequest_of_lt {m : List Frame} (h : 2 < m.length) : asRequest m = none := by
  match m, h with
  | _ :: _ :: _ :: _, _ => rfl

/-! ## The loop -/

inductive Pc (Frame : Type)
  | top                              -- `while (!is_shutdown())`
  | recvClient                       -- before `_frontend.recv(&client)`
  | gotClient (client : Frame)
  | recvMsg (client : Frame)         -- before `_frontend.recv(&msg)`
  | gotMsg (client msg : Frame)
  | dumping                          -- in `while (more)`, before `_frontend.recv(&msg)`
  | handling (client msg : Frame)    -- in `_handle_request`
  | exited

/-- `queue` is what the socket has received, and `more` its `ZMQ_RCVMORE`.  From `arrived` on it is history, which
nobody reads: the messages that arrived, the frames that each turn of the loop took, those that this turn has taken so
far, and the calls of `_handle_request`. -/
structure State (Frame : Type) where
  pc       : Pc Frame
  queue    : List (Frame × Bool)
  more     : Bool
  shutdown : Bool
  arrived  : List (List Frame)
  taken    : List (List Frame)
  current  : List Frame
  handled  : List (Frame × Frame)

def State.init : State Frame := ⟨.top, [], false, false, [], [], [], []⟩

/-- How a call of `_handle_request` ends. -/
inductive Ending
  | returned (r : Int)
  | threw (what : List Char)

inductive Action (Frame : Type)
  | arrive (f : Frame) (fs : List Frame)
  | doShutdown
  | server (e : Ending)                       -- the server thread goes on; a handler ends with `e`

def State.next (s : State Frame) : State Frame :=
  { s with pc := .top, current := [], taken := if s.current.isEmpty then s.taken else s.taken ++ [s.current] }

/-- `recv`, and then `k`; where there is nothing to receive it times out, and `ok` is false. -/
def State.recv (s : State Frame) (k : Frame → Pc Frame) : State Frame :=
  match s.queue with
  | []             => s.next
  | (f, more) :: q => { s with pc := k f, queue := q, more := more, current := s.current ++ [f] }

def serverStep (s : State Frame) (e : Ending) : Option (State Frame) :=
  match s.pc with
  -- `_check_backend_queue` writes to the socket, but does not receive
  | .top               => some { s with pc := if s.shutdown then .exited else .recvClient }
  | .recvClient        => some (s.recv .gotClient)
  | .gotClient client  => some (if s.more then { s with pc := .recvMsg client } else s.next)
  | .recvMsg client    => some (s.recv (.gotMsg client))
  | .gotMsg client msg =>
    some (if s.more then { s with pc := .dumping }
      else { s with pc := .handling client msg, handled := s.handled ++ [(client, msg)] })
  | .dumping           => some (if s.more then s.recv (fun _ => .dumping) else s.next)
  | .handling _ _      =>
    match e with
    | .returned _ => some s.next
    | .threw _    => some s.next
  | .exited            => none

def step (s : State Frame) : Action Frame → Option (State Frame)
  | .arrive f fs => some { s with queue := s.queue ++ frames (f :: fs), arrived := s.arrived ++ [f :: fs] }
  | .doShutdown  => some { s with shutdown := true }
  | .server e    => serverStep s e

/-! ## What each point of the loop knows -/

/-- The message that this turn of the loop has begun, of which `tl` is still on the socket. -/
def begun (current tl : List Frame) : List (List Frame) := if current.isEmpty then [] else [current ++ tl]

def Pc.called : Pc Frame → List (Frame × Frame)
  | .handling client msg => [(client, msg)]
  | _                    => []

def State.PcOk (s : State Frame) (tl : List Frame) : Prop :=
  match s.pc with
  | .top | .recvClient | .exited => s.current = [] ∧ tl = []
  | .gotClient client            => s.current = [client] ∧ s.more = !tl.isEmpty
  | .recvMsg client              => s.current = [client] ∧ tl ≠ []
  | .gotMsg client msg           => s.current = [client, msg] ∧ s.more = !tl.isEmpty
  | .dumping                     => s.current ≠ [] ∧ 2 < (s.current ++ tl).length ∧ s.more = !tl.isEmpty
  | .handling client msg         => s.current = [client, msg] ∧ tl = []

/-- **In step**: the socket holds the rest of the message that has been begun, and the messages that have not. -/
structure State.InStep (s : State Frame) (tl : List Frame) (rest : List (List Frame)) : Prop where
  arrived : s.arrived = s.taken ++ begun s.current tl ++ rest
  queue   : s.queue = frames tl ++ rest.flatMap frames
  handled : s.handled = requests s.taken ++ s.pc.called
  pc      : s.PcOk tl
  exited  : s.pc = .exited → s.shutdown = true
  whole   : ∀ m ∈ rest, m ≠ []

theorem inStep_init : (State.init : State Frame).InStep [] [] :=
  ⟨rfl, rfl, rfl, ⟨rfl, rfl⟩, fun h => (nomatch h), fun _ h => nomatch h⟩

section
variable {s s' : State Frame} {tl : List Frame} {rest : List (List Frame)}

theorem inStep_next (h : s.InStep [] rest) (hcur : s.current ≠ []) (hcall : s.pc.called = requests [s.current]) :
    s.next.InStep [] rest := by
  have hempty : s.current.isEmpty = false := by simpa using hcur
  have htaken : s.next.taken = s.taken ++ [s.current] := by
    unfold State.next
    rw [hempty]
    rfl
  refine ⟨?_, h.queue, ?_, ⟨rfl, rfl⟩, fun hx => (nomatch hx), h.whole⟩
  · have harrived := h.arrived
    unfold begun at harrived
    rw [hempty, List.append_nil] at harrived
    rw [htaken]
    simpa [begun, State.next] using harrived
  · rw [htaken, requests_append, ← hcall]
    show s.handled = _ ++ []
    rw [List.append_nil, h.handled]

theorem inStep_recv {f : Frame} {k : Frame → Pc Frame} (h : s.InStep (f :: tl) rest) (hcur : s.current ≠ [])
    (hcall : s.pc.called = []) (hk : (k f).called = []) (hx : k f ≠ .exited) :
    (s.recv k).pc = k f ∧ (s.recv k).current = s.current ++ [f] ∧ (s.recv k).more = !tl.isEmpty ∧
      ((s.recv k).PcOk tl → (s.recv k).InStep tl rest) := by
  have hqueue : s.queue = (f, !tl.isEmpty) :: (frames tl ++ rest.flatMap frames) := h.queue
  have hrecv : s.recv k = { s with
      pc      := k f
      queue   := frames tl ++ rest.flatMap frames
      more    := !tl.isEmpty
      current := s.current ++ [f] } := by
    unfold State.recv
    rw [hqueue]
  rw [hrecv]
  refine ⟨rfl, rfl, rfl, fun hpc => ⟨?_, rfl, ?_, hpc, fun he => absurd he hx, h.whole⟩⟩
  · have harrived := h.arrived
    have hempty : s.current.isEmpty = false := by simpa using hcur
    unfold begun at harrived ⊢
    rw [hempty] at harrived
    simpa using harrived
  · show s.handled = requests s.taken ++ (k f).called
    rw [hk, ← hcall]
    exact h.handled

theorem inStep_recvClient {f : Frame} {fs : List Frame} (h : s.InStep [] ((f :: fs) :: rest)) (hcur : s.current = [])
    (hcall : s.pc.called = []) : (s.recv .gotClient).InStep fs rest := by
  have hqueue : s.queue = (f, !fs.isEmpty) :: (frames fs ++ rest.flatMap frames) := h.queue
  have hrecv : s.recv .gotClient = { s with
      pc      := .gotClient f
      queue   := frames fs ++ rest.flatMap frames
      more    := !fs.isEmpty
      current := s.current ++ [f] } := by
    unfold State.recv
    rw [hqueue]
  rw [hrecv, hcur]
  refine ⟨?_, rfl, ?_, ⟨rfl, rfl⟩, fun he => (nomatch he), fun m hm => h.whole m (.tail _ hm)⟩
  · have harrived := h.arrived
    rw [hcur] at harrived
    simpa [begun] using harrived
  · show s.handled = requests s.taken ++ []
    rw [← hcall]
    exact h.handled

theorem recv_timeout {k : Frame → Pc Frame} (h : s.InStep [] []) (hcur : s.current = []) :
    s.recv k = { s with pc := .top, current := [] } := by
  have hqueue : s.queue = [] := h.queue
  unfold State.recv State.next
  rw [hqueue, hcur]
  rfl

structure ServerStep (s s' : State Frame) (tl' : List Frame) (rest' : List (List Frame)) : Prop where
  inStep   : s'.InStep tl' rest'
  arrived  : s'.arrived = s.arrived
  shutdown : s'.shutdown = s.shutdown

theorem recv_arrived (s : State Frame) (k : Frame → Pc Frame) : (s.recv k).arrived = s.arrived := by
  unfold State.recv
  split <;> rfl

theorem recv_shutdown (s : State Frame) (k : Frame → Pc Frame) : (s.recv k).shutdown = s.shutdown := by
  unfold State.recv
  split <;> rfl

theorem serverStep_inStep {e : Ending} (h : s.InStep tl rest) (hstep : serverStep s e = some s') :
    ∃ tl' rest', ServerStep s s' tl' rest' := by
  have hpcOk := h.pc
  unfold State.PcOk at hpcOk
  cases hpc : s.pc with
  | top =>
    simp only [serverStep, hpc, Option.some.injEq] at hstep hpcOk
    subst hstep
    refine ⟨tl, rest, ⟨h.arrived, h.queue, ?_, ?_, ?_, h.whole⟩, rfl, rfl⟩
    · have hhandled := h.handled
      rw [hpc] at hhandled
      cases s.shutdown <;> exact hhandled
    · unfold State.PcOk
      cases s.shutdown <;> exact hpcOk
    · cases hs : s.shutdown with
      | true => exact fun _ => rfl
      | false => exact fun hx => nomatch hx
  | recvClient =>
    simp only [serverStep, hpc, Option.some.injEq] at hstep hpcOk
    obtain ⟨hcur, rfl⟩ := hpcOk
    subst hstep
    cases rest with
    | nil =>
      rw [recv_timeout h hcur]
      refine ⟨[], [], ⟨?_, h.queue, ?_, ⟨rfl, rfl⟩, fun hx => (nomatch hx), h.whole⟩, rfl, rfl⟩
      · have harrived := h.arrived
        rw [hcur] at harrived
        exact harrived
      · have hhandled := h.handled
        rw [hpc] at hhandled
        exact hhandled
    | cons m rest =>
      cases m with
      | nil => exact absurd rfl (h.whole [] (.head _))
      | cons f fs => exact ⟨fs, rest, inStep_recvClient h hcur (by rw [hpc]; rfl), recv_arrived s _, recv_shutdown s _⟩
  | gotClient client =>
    simp only [serverStep, hpc, Option.some.injEq] at hstep hpcOk
    obtain ⟨hcur, hmore⟩ := hpcOk
    subst hstep
    rw [hmore]
    cases tl with
    | nil =>
      refine ⟨[], rest, inStep_next h (by simp [hcur]) ?_, rfl, rfl⟩
      rw [hpc, hcur]
      rfl
    | cons f fs =>
      refine ⟨f :: fs, rest, ⟨h.arrived, h.queue, ?_, ⟨hcur, by simp⟩, fun hx => (nomatch hx), h.whole⟩, rfl, rfl⟩
      have hhandled := h.handled
      rw [hpc] at hhandled
      exact hhandled
  | recvMsg client =>
    simp only [serverStep, hpc, Option.some.injEq] at hstep hpcOk
    obtain ⟨hcur, htl⟩ := hpcOk
    subst hstep
    cases tl with
    | nil => exact absurd rfl htl
    | cons f fs =>
      obtain ⟨hpc', hcur', hmore', hin⟩ := inStep_recv (k := .gotMsg client) h (by simp [hcur]) (by rw [hpc]; rfl) rfl
        (fun hx => nomatch hx)
      refine ⟨fs, rest, hin ?_, recv_arrived s _, recv_shutdown s _⟩
      unfold State.PcOk
      rw [hpc']
      exact ⟨by rw [hcur', hcur]; rfl, hmore'⟩
  | gotMsg client msg =>
    simp only [serverStep, hpc, Option.some.injEq] at hstep hpcOk
    obtain ⟨hcur, hmore⟩ := hpcOk
    subst hstep
    have hhandled := h.handled
    rw [hpc] at hhandled
    rw [hmore]
    cases tl with
    | nil =>
      refine ⟨[], rest, ⟨h.arrived, h.queue, ?_, ⟨hcur, rfl⟩, fun hx => (nomatch hx), h.whole⟩, rfl, rfl⟩
      show s.handled ++ [(client, msg)] = _
      rw [hhandled]
      exact congrArg (· ++ _) (List.append_nil _)
    | cons f fs =>
      refine ⟨f :: fs, rest, ⟨h.arrived, h.queue, hhandled, ⟨?_, ?_, rfl⟩, fun hx => (nomatch hx), h.whole⟩, rfl, rfl⟩
      · show s.current ≠ []
        simp [hcur]
      · show 2 < (s.current ++ f :: fs).length
        simp [hcur]
  | dumping =>
    simp only [serverStep, hpc, Option.some.injEq] at hstep hpcOk
    obtain ⟨hcur, hlen, hmore⟩ := hpcOk
    subst hstep
    rw [hmore]
    cases tl with
    | nil =>
      rw [List.append_nil] at hlen
      refine ⟨[], rest, inStep_next h hcur ?_, rfl, rfl⟩
      rw [hpc, requests, List.filterMap_cons, asRequest_of_lt hlen]
      rfl
    | cons f fs =>
      obtain ⟨hpc', hcur', hmore', hin⟩ := inStep_recv (k := fun _ => .dumping) h hcur (by rw [hpc]; rfl) rfl
        (fun hx => nomatch hx)
      refine ⟨fs, rest, hin ?_, recv_arrived s _, recv_shutdown s _⟩
      unfold State.PcOk
      rw [hpc']
      rw [hcur']
      exact ⟨by simp, by simpa using hlen, hmore'⟩
  | handling client msg =>
    simp only [serverStep, hpc] at hstep hpcOk
    obtain ⟨hcur, rfl⟩ := hpcOk
    have hnext : s' = s.next := by
      cases e <;> exact (Option.some.inj hstep).symm
    subst hnext
    refine ⟨[], rest, inStep_next h (by simp [hcur]) ?_, rfl, rfl⟩
    rw [hpc, hcur]
    rfl
  | exited =>
    simp only [serverStep, hpc] at hstep
    cases hstep

theorem step_inStep {a : Action Frame} (h : s.InStep tl rest) (hstep : step s a = some s') :
    ∃ tl' rest', s'.InStep tl' rest' := by
  cases a with
  | arrive f fs =>
    obtain rfl := Option.some.inj hstep
    refine ⟨tl, rest ++ [f :: fs], ?_, ?_, h.handled, h.pc, h.exited, ?_⟩
    · show s.arrived ++ [f :: fs] = _
      rw [h.arrived, List.append_assoc]
    · show s.queue ++ frames (f :: fs) = _
      rw [h.queue, List.append_assoc, List.flatMap_append, List.flatMap_singleton]
    · intro m hm
      rcases List.mem_append.1 hm with hm | hm
      · exact h.whole m hm
      · rw [List.mem_singleton.1 hm]
        exact List.cons_ne_nil f fs
  | doShutdown =>
    obtain rfl := Option.some.inj hstep
    exact ⟨tl, rest, h.arrived, h.queue, h.handled, h.pc, fun _ => rfl, h.whole⟩
  | server e =>
    obtain ⟨tl', rest', hnext⟩ := serverStep_inStep h hstep
    exact ⟨tl', rest', hnext.inStep⟩

theorem inStep_of_reachable (h : Reachable step State.init s) : ∃ tl rest, s.InStep tl rest := by
  apply h.invariant (fun s => ∃ tl rest, s.InStep tl rest)
  · exact ⟨[], [], inStep_init⟩
  · rintro s a s' ⟨tl, rest, hin⟩ hstep
    exact step_inStep hin hstep

/-- The call that this turn of the loop has made is for the message that it has begun. -/
theorem called_isPrefix (h : s.InStep tl rest) : s.pc.called <+: requests (begun s.current tl) := by
  have hpcOk := h.pc
  unfold State.PcOk at hpcOk
  cases hpc : s.pc with
  | handling client msg =>
    simp only [hpc] at hpcOk
    rw [hpcOk.1, hpcOk.2]
    exact List.prefix_rfl
  | _ => exact List.nil_prefix

/-! ## Every request is handled -/

/-- There is nothing to receive, and the server thread waits or is in its last handler. -/
def State.Settled (s : State Frame) : Prop :=
  s.queue = [] ∧ (s.pc = .top ∨ s.pc = .recvClient ∨ s.pc.called ≠ [])

/-- How far it is to the next `recv`. -/
def Pc.rank : Pc Frame → Nat
  | .gotMsg _ _   => 3
  | .gotClient _  => 2
  | .dumping      => 2
  | .handling _ _ => 2
  | .top          => 1
  | _             => 0

theorem rank_lt (pc : Pc Frame) : pc.rank < 4 := by
  cases pc <;> simp [Pc.rank]

def State.left (s : State Frame) : Nat := 4 * s.queue.length + s.pc.rank

theorem rest_of_queue (h : s.InStep tl rest) (hqueue : s.queue = []) : tl = [] ∧ rest = [] := by
  have hnil := h.queue
  rw [hqueue] at hnil
  obtain ⟨htl, hrest⟩ := List.append_eq_nil_iff.1 hnil.symm
  refine ⟨frames_eq_nil.1 htl, ?_⟩
  cases rest with
  | nil => rfl
  | cons m rest =>
    have hm := List.flatMap_eq_nil_iff.1 hrest m (.head _)
    exact absurd (frames_eq_nil.1 hm) (h.whole m (.head _))

theorem handled_of_settled (h : s.InStep tl rest) (hs : s.Settled) : s.handled = requests s.arrived := by
  obtain ⟨rfl, rfl⟩ := rest_of_queue h hs.1
  have hpcOk := h.pc
  unfold State.PcOk at hpcOk
  rw [h.handled, h.arrived, List.append_nil, requests_append]
  apply congrArg (requests s.taken ++ ·)
  rcases hs.2 with hpc | hpc | hcalled
  · simp only [hpc] at hpcOk
    rw [hpc, hpcOk.1]
    rfl
  · simp only [hpc] at hpcOk
    rw [hpc, hpcOk.1]
    rfl
  · cases hpc : s.pc with
    | handling client msg =>
      simp only [hpc] at hpcOk
      rw [hpcOk.1]
      rfl
    | _ =>
      rw [hpc] at hcalled
      exact absurd rfl hcalled

theorem left_recv {k : Frame → Pc Frame} (hqueue : s.queue ≠ []) :
    (s.recv k).left < s.left := by
  unfold State.recv State.left
  cases hq : s.queue with
  | nil => exact absurd hq hqueue
  | cons x q =>
    have hrank := rank_lt (k x.1)
    simp only [List.length_cons]
    omega

theorem settled_next (s : State Frame) (hqueue : s.queue = []) : s.next.Settled := ⟨hqueue, .inl rfl⟩

theorem left_next (s : State Frame) (h : 1 < s.pc.rank) : s.next.left < s.left := by
  show 4 * s.queue.length + 1 < 4 * s.queue.length + s.pc.rank
  omega

/-- The end of a turn of the loop: nothing is left, or it is nearer. -/
theorem next_progress (hpc : 1 < s.pc.rank) : s.next.Settled ∨ ¬ s.Settled ∧ s.next.left < s.left := by
  by_cases hqueue : s.queue = []
  · exact .inl (settled_next s hqueue)
  · exact .inr ⟨fun hs => hqueue hs.1, left_next s hpc⟩

theorem recv_progress {k : Frame → Pc Frame} :
    (s.recv k).Settled ∨ ¬ s.Settled ∧ (s.recv k).left < s.left := by
  by_cases hqueue : s.queue = []
  · have hrecv : s.recv k = s.next := by
      unfold State.recv
      rw [hqueue]
    rw [hrecv]
    exact .inl (settled_next s hqueue)
  · exact .inr ⟨fun hs => hqueue hs.1, left_recv hqueue⟩

/-- **The server thread gets on**, whatever the handlers do. -/
theorem serverStep_progress (h : s.InStep tl rest) (hlive : s.shutdown = false) (e : Ending) :
    ∃ s', serverStep s e = some s' ∧ (s'.Settled ∨ ¬ s.Settled ∧ s'.left < s.left) := by
  have hnot : ∀ pc : Pc Frame, s.pc = pc → pc.called = [] → pc ≠ .top → pc ≠ .recvClient → ¬ s.Settled := by
    rintro pc rfl hcalled htop hrecv ⟨-, h1 | h2 | h3⟩
    · exact htop h1
    · exact hrecv h2
    · exact h3 hcalled
  cases hpc : s.pc with
  | top =>
    refine ⟨_, by simp only [serverStep, hpc]; rfl, ?_⟩
    rw [hlive]
    by_cases hqueue : s.queue = []
    · exact .inl ⟨hqueue, .inr (.inl rfl)⟩
    · refine .inr ⟨fun hs => hqueue hs.1, ?_⟩
      unfold State.left
      rw [hpc]
      exact Nat.lt_succ_self _
  | recvClient =>
    exact ⟨s.recv .gotClient, by simp only [serverStep, hpc], recv_progress⟩
  | gotClient client =>
    refine ⟨_, by simp only [serverStep, hpc]; rfl, ?_⟩
    cases s.more with
    | true =>
      refine .inr ⟨hnot _ hpc rfl (fun hx => nomatch hx) (fun hx => nomatch hx), ?_⟩
      unfold State.left
      rw [hpc]
      exact Nat.lt_add_of_pos_right Nat.two_pos
    | false => exact next_progress (by rw [hpc]; exact Nat.lt_succ_self 1)
  | recvMsg client =>
    exact ⟨s.recv (.gotMsg client), by simp only [serverStep, hpc], recv_progress⟩
  | gotMsg client msg =>
    refine ⟨_, by simp only [serverStep, hpc]; rfl, ?_⟩
    cases s.more with
    | true =>
      refine .inr ⟨hnot _ hpc rfl (fun hx => nomatch hx) (fun hx => nomatch hx), ?_⟩
      unfold State.left
      rw [hpc]
      exact Nat.lt_succ_self _
    | false =>
      refine .inr ⟨hnot _ hpc rfl (fun hx => nomatch hx) (fun hx => nomatch hx), ?_⟩
      unfold State.left
      rw [hpc]
      exact Nat.lt_succ_self _
  | dumping =>
    refine ⟨_, by simp only [serverStep, hpc]; rfl, ?_⟩
    cases s.more with
    | true => exact recv_progress
    | false => exact next_progress (by rw [hpc]; exact Nat.lt_succ_self 1)
  | handling client msg =>
    refine ⟨s.next, ?_, next_progress (by rw [hpc]; exact Nat.lt_succ_self 1)⟩
    simp only [serverStep, hpc]
    cases e <;> rfl
  | exited =>
    have hdown := h.exited hpc
    rw [hlive] at hdown
    cases hdown

end

/-- **The frames of the receive loop.**  Whatever has happened, the turns of the loop so far have taken one message each,
from the first that arrived on, and have handled those of two frames; the turn that has begun takes frames of the next
one.  As long as shutdown is not requested, the server thread, with any outcome of the handlers, handles the rest. -/
theorem inStep_run (s : State Frame) (h : Reachable step State.init s) :
    (∃ tl rest, s.arrived = s.taken ++ begun s.current tl ++ rest) ∧
      s.handled = requests s.taken ++ s.pc.called ∧ s.handled <+: requests s.arrived ∧
      (s.shutdown = false → ∀ es : List Ending, s.left < es.length →
        ∃ s', run step s (es.map .server) = some s' ∧ s'.arrived = s.arrived ∧ s'.handled = requests s.arrived) := by
  obtain ⟨tl, rest, hin⟩ := inStep_of_reachable h
  refine ⟨⟨tl, rest, hin.arrived⟩, hin.handled, ?_, fun hlive es hes => ?_⟩
  · have harrived := hin.arrived
    rw [hin.handled, harrived, requests_append, requests_append]
    exact (List.prefix_append_right_inj _).2 (called_isPrefix hin) |>.trans (List.prefix_append _ _)
  · have hstep : ∀ (t : State Frame) (a : Action Frame), (∃ e, a = .server e) →
        ((∃ tl rest, t.InStep tl rest) ∧ t.shutdown = false ∧ t.arrived = s.arrived) →
        ∃ t', step t a = some t' ∧ ((∃ tl rest, t'.InStep tl rest) ∧ t'.shutdown = false ∧ t'.arrived = s.arrived) ∧
          (t'.Settled ∨ ¬ t.Settled ∧ t'.left < t.left) := by
      rintro t _ ⟨e, rfl⟩ ⟨⟨tl, rest, ht⟩, hlive, harrived⟩
      obtain ⟨t', ht', hprogress⟩ := serverStep_progress ht hlive e
      obtain ⟨tl', rest', hnext⟩ := serverStep_inStep ht ht'
      exact ⟨t', ht', ⟨⟨tl', rest', hnext.inStep⟩, hnext.shutdown.trans hlive, hnext.arrived.trans harrived⟩, hprogress⟩
    have hserver : ∀ a ∈ es.map (Action.server : Ending → Action Frame), ∃ e, a = .server e := by
      intro a ha
      obtain ⟨e, -, rfl⟩ := List.mem_map.1 ha
      exact ⟨e, rfl⟩
    obtain ⟨s', hrun, ⟨⟨tl', rest', hin'⟩, -, harrived⟩, hsettled⟩ :=
      run_of_measure step hstep (es.map .server) s hserver ⟨⟨tl, rest, hin⟩, hlive, rfl⟩
        (.inr (by rw [List.length_map]; exact hes))
    exact ⟨s', hrun, harrived, by rw [handled_of_settled hin' hsettled, harrived]⟩

def fourMessages : List (Action Nat) := [.arrive 1 [], .arrive 2 [3], .arrive 4 [5, 6], .arrive 7 [8]]

def afterFourMessages : State Nat :=
  { State.init with
    queue   := [(1, false), (2, true), (3, false), (4, true), (5, true), (6, false), (7, true), (8, false)]
    arrived := [[1], [2, 3], [4, 5, 6], [7, 8]] }

/-- Two of the four are requests; the handlers throw. -/
theorem handled_fourMessages :
    ∃ s', run step afterFourMessages ((List.replicate 40 (Ending.threw [])).map .server) = some s' ∧
      s'.handled = [(2, 3), (7, 8)] := by
  obtain ⟨-, -, -, hrest⟩ := inStep_run afterFourMessages ⟨fourMessages, rfl⟩
  obtain ⟨s', hrun, -, hhandled⟩ := hrest rfl (List.replicate 40 (.threw [])) (by decide)
  exact ⟨s', hrun, hhandled⟩

end Frontend
end FrbL1
