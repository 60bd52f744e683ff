import FrbL1.Run
import Mathlib.Algebra.BigOperators.Fin
import Mathlib.Algebra.Order.BigOperators.Group.Finset
import Mathlib.Algebra.Order.BigOperators.Group.Multiset
import Mathlib.Tactic.Abel
/-!
# AsyncRpcServer — the prototype of the asynchronous RPC server

`rpc_server_async.py`: a server thread between its clients and a pool of workers.  A `write_chunks` request becomes one
job for each chunk; a worker does a job in its own time, and the server passes its reply on to the client that asked.
Clients, workers and the server thread interleave in any way; to which worker a job goes is up to the socket.  A socket
holds so many messages, and who sends to a full one waits (`Limits`): the server thread takes no replies while it hands
out the chunks of a request, so that it comes to a stop with its workers if these are too many (`run_serves`).
-/
namespace FrbL1
namespace AsyncRpc

open Trans

/-- How many messages the sockets hold: the jobs and the replies of a worker, and the replies for a client. -/
structure Limits where
  jobs        : Nat
  replies     : Nat
  client      : Nat
  jobs_pos    : 0 < jobs
  replies_pos : 0 < replies

def Limits.room (limits : Limits) : Nat := limits.jobs + 1 + limits.replies

/-- What the unpacker makes of a message. -/
inductive Request
  | writeChunks (minChunk maxChunk : Int)
  | getStatistics
  | unknown
  | malformed
  deriving DecidableEq

inductive Reply
  | written (chunk : Int)
  | statistics
  deriving DecidableEq

inductive Socket
  | frontend
  | backend
  deriving DecidableEq

variable (Client : Type)

/-- Where the server thread is: in `poll`, in its loop over the events, in the loop over the chunks of a request, or where
it sends a reply. -/
inductive Pc
  | polling
  | events (events : List Socket)
  | chunks (client : Client) (chunks : List Int) (events : List Socket)
  | sending (client : Client) (r : Reply) (events : List Socket)
  | raised

/-- Jobs and replies carry their client. -/
structure Worker where
  jobs    : List (Client × Int)
  working : Option (Client × Int)
  replies : List (Client × Int)

/-- `inbox` are the messages of the clients that the server has not received, `unread` says how many replies a client
has not, `received` and `sent` are all that the server has received and sent. -/
structure State (n : Nat) where
  inbox     : List (Client × Request)
  connected : Client → Bool
  unread    : Client → Nat
  workers   : Fin n → Worker Client
  pc        : Pc Client
  received  : List (Client × Request)
  sent      : List (Client × Reply)

inductive Action (n : Nat)
  | request (client : Client) (r : Request)
  | disconnect (client : Client)
  | read (client : Client)
  | poll (frontend backend : Bool)
  | recvRequest (client : Client)
  | sendJob (w : Fin n)
  | recvReply (w : Fin n)
  | send
  | take (w : Fin n)
  | finish (w : Fin n)

variable {Client} {n : Nat}

namespace Worker

variable (w : Worker Client)

def push (job : Client × Int) : Worker Client := { w with jobs := w.jobs ++ [job] }
def begin (job : Client × Int) (jobs : List (Client × Int)) : Worker Client := { w with jobs, working := some job }
def finish (job : Client × Int) : Worker Client := { w with working := none, replies := w.replies ++ [job] }
def pop (replies : List (Client × Int)) : Worker Client := { w with replies }

end Worker

def Action.isServer : Action Client n → Bool
  | .request _ _ | .disconnect _ | .read _ => false
  | _                                      => true

/-- `range(min_chunk, max_chunk)` -/
def range (minChunk maxChunk : Int) : List Int :=
  (List.range (maxChunk - minChunk).toNat).map (fun i => minChunk + (i : Nat))

namespace State

def init : State Client n where
  inbox     := []
  connected := fun _ => true
  unread    := fun _ => 0
  workers   := fun _ => ⟨[], none, []⟩
  pc        := .polling
  received  := []
  sent      := []

variable (s : State Client n)

/-- The next event, or the next `poll`. -/
def next : List Socket → Pc Client
  | []     => .polling
  | events => .events events

def nextChunk (client : Client) (events : List Socket) : List Int → Pc Client
  | []     => next events
  | chunks => .chunks client chunks events

def setWorker (w : Fin n) (worker : Worker Client) : State Client n :=
  { s with workers := Function.update s.workers w worker }

def handle (client : Client) (events : List Socket) : Request → Pc Client
  | .writeChunks minChunk maxChunk => nextChunk client events (range minChunk maxChunk)
  | .getStatistics                 => .sending client .statistics events
  | .unknown                       => next events
  | .malformed                     => .raised

/-- The events of a `poll`, if the sockets can be read. -/
def ready (frontend backend : Bool) : Option (List Socket) :=
  if (frontend → s.inbox ≠ []) ∧ (backend → ∃ w, (s.workers w).replies ≠ []) then
    some ((if frontend then [.frontend] else []) ++ if backend then [.backend] else [])
  else none

end State

section
variable [DecidableEq Client] (limits : Limits)

/-- One action of one of them, if it can be taken. -/
def step (s : State Client n) : Action Client n → Option (State Client n)
  | .request client r =>
    if s.connected client then some { s with inbox := s.inbox ++ [(client, r)] } else none
  | .disconnect client => some { s with connected := fun c => if c = client then false else s.connected c }
  | .read client =>
    if 0 < s.unread client then some { s with unread := Function.update s.unread client (s.unread client - 1) } else none
  | .poll frontend backend =>
    match s.pc, s.ready frontend backend with
    | .polling, some (e :: events) => some { s with pc := .events (e :: events) }
    | _,        _                  => none
  | .recvRequest client =>
    match s.pc, s.inbox.find? (fun x => x.1 = client) with
    | .events (.frontend :: events), some x =>
      some { s with
        inbox := s.inbox.eraseP (fun x => x.1 = client), received := s.received ++ [x]
        pc := State.handle x.1 events x.2 }
    | _, _ => none
  | .sendJob w =>
    match s.pc with
    | .chunks client (chunk :: chunks) events =>
      if (s.workers w).jobs.length < limits.jobs then
        some { s.setWorker w ((s.workers w).push (client, chunk)) with pc := State.nextChunk client events chunks }
      else none
    | _ => none
  | .recvReply w =>
    match s.pc, (s.workers w).replies with
    | .events (.backend :: events), (client, chunk) :: replies =>
      some { s.setWorker w ((s.workers w).pop replies) with pc := .sending client (.written chunk) events }
    | _, _ => none
  | .send =>
    match s.pc with
    | .sending client r events =>
      if s.connected client then
        if s.unread client < limits.client then
          some { s with
            unread := Function.update s.unread client (s.unread client + 1), sent := s.sent ++ [(client, r)]
            pc := State.next events }
        else none
      -- `ROUTER_MANDATORY`
      else some { s with pc := .raised }
    | _ => none
  | .take w =>
    match (s.workers w).working, (s.workers w).jobs with
    | none, job :: jobs => some (s.setWorker w ((s.workers w).begin job jobs))
    | _, _              => none
  | .finish w =>
    match (s.workers w).working with
    | some job =>
      if (s.workers w).replies.length < limits.replies then some (s.setWorker w ((s.workers w).finish job)) else none
    | none => none

/-- What an action can do, case by case. -/
inductive ActionStep (s : State Client n) : Action Client n → State Client n → Prop
  | request (client : Client) (r : Request) (hconnected : s.connected client = true) :
    ActionStep s (.request client r) { s with inbox := s.inbox ++ [(client, r)] }
  | disconnect (client : Client) :
    ActionStep s (.disconnect client) { s with connected := fun c => if c = client then false else s.connected c }
  | read (client : Client) (hunread : 0 < s.unread client) :
    ActionStep s (.read client) { s with unread := Function.update s.unread client (s.unread client - 1) }
  | poll (frontend backend : Bool) {e : Socket} {events : List Socket} (hpc : s.pc = .polling)
    (hready : s.ready frontend backend = some (e :: events)) :
    ActionStep s (.poll frontend backend) { s with pc := .events (e :: events) }
  | recvRequest (client : Client) {x : Client × Request} {events : List Socket}
    (hpc : s.pc = .events (.frontend :: events)) (hx : s.inbox.find? (fun x => x.1 = client) = some x) :
    ActionStep s (.recvRequest client) { s with
      inbox := s.inbox.eraseP (fun x => x.1 = client), received := s.received ++ [x]
      pc := State.handle x.1 events x.2 }
  | sendJob (w : Fin n) {client : Client} {chunk : Int} {chunks : List Int} {events : List Socket}
    (hpc : s.pc = .chunks client (chunk :: chunks) events) (hroom : (s.workers w).jobs.length < limits.jobs) :
    ActionStep s (.sendJob w)
      { s.setWorker w ((s.workers w).push (client, chunk)) with pc := State.nextChunk client events chunks }
  | recvReply (w : Fin n) {client : Client} {chunk : Int} {replies : List (Client × Int)} {events : List Socket}
    (hpc : s.pc = .events (.backend :: events)) (hreplies : (s.workers w).replies = (client, chunk) :: replies) :
    ActionStep s (.recvReply w)
      { s.setWorker w ((s.workers w).pop replies) with pc := .sending client (.written chunk) events }
  | send {client : Client} {r : Reply} {events : List Socket} (hpc : s.pc = .sending client r events)
    (hconnected : s.connected client = true) (hroom : s.unread client < limits.client) :
    ActionStep s .send { s with
      unread := Function.update s.unread client (s.unread client + 1), sent := s.sent ++ [(client, r)]
      pc := State.next events }
  | gone {client : Client} {r : Reply} {events : List Socket} (hpc : s.pc = .sending client r events)
    (hgone : s.connected client = false) : ActionStep s .send { s with pc := .raised }
  | take (w : Fin n) {job : Client × Int} {jobs : List (Client × Int)} (hworking : (s.workers w).working = none)
    (hjobs : (s.workers w).jobs = job :: jobs) : ActionStep s (.take w) (s.setWorker w ((s.workers w).begin job jobs))
  | finish (w : Fin n) {job : Client × Int} (hworking : (s.workers w).working = some job)
    (hroom : (s.workers w).replies.length < limits.replies) :
    ActionStep s (.finish w) (s.setWorker w ((s.workers w).finish job))

variable {limits}

theorem step_cases {s s' : State Client n} {a : Action Client n} (h : step limits s a = some s') :
    ActionStep limits s a s' := by
  unfold step at h
  cases a with
  | request client r =>
    obtain ⟨hconnected, h⟩ := Option.ite_none_right_eq_some.1 h
    exact Option.some.inj h ▸ .request client r hconnected
  | disconnect client => exact Option.some.inj h ▸ .disconnect client
  | read client =>
    obtain ⟨hunread, h⟩ := Option.ite_none_right_eq_some.1 h
    exact Option.some.inj h ▸ .read client hunread
  | poll frontend backend =>
    simp only at h
    split at h
    · rename_i hpc hready
      exact Option.some.inj h ▸ .poll frontend backend hpc hready
    · cases h
  | recvRequest client =>
    simp only at h
    split at h
    · rename_i hpc hx
      exact Option.some.inj h ▸ .recvRequest client hpc hx
    · cases h
  | sendJob w =>
    simp only at h
    split at h
    · rename_i hpc
      obtain ⟨hroom, h⟩ := Option.ite_none_right_eq_some.1 h
      exact Option.some.inj h ▸ .sendJob w hpc hroom
    · cases h
  | recvReply w =>
    simp only at h
    split at h
    · rename_i hpc hreplies
      exact Option.some.inj h ▸ .recvReply w hpc hreplies
    · cases h
  | send =>
    simp only at h
    split at h
    · rename_i hpc
      split at h
      · rename_i hconnected
        obtain ⟨hroom, h⟩ := Option.ite_none_right_eq_some.1 h
        exact Option.some.inj h ▸ .send hpc hconnected hroom
      · rename_i hgone
        exact Option.some.inj h ▸ .gone hpc (Bool.eq_false_of_not_eq_true hgone)
    · cases h
  | take w =>
    simp only at h
    split at h
    · rename_i hworking hjobs
      exact Option.some.inj h ▸ .take w hworking hjobs
    · cases h
  | finish w =>
    simp only at h
    split at h
    · rename_i hworking
      obtain ⟨hroom, h⟩ := Option.ite_none_right_eq_some.1 h
      exact Option.some.inj h ▸ .finish w hworking hroom
    · cases h

end

/-! ## Requests and their replies -/

def Request.nchunks : Request → Nat
  | .writeChunks minChunk maxChunk => (range minChunk maxChunk).length
  | _                              => 0

def expected (x : Client × Request) : Multiset (Client × Reply) :=
  match x.2 with
  | .writeChunks minChunk maxChunk => ((range minChunk maxChunk).map (fun chunk => (x.1, Reply.written chunk)) : List _)
  | .getStatistics                 => {(x.1, .statistics)}
  | _                              => 0

def written (job : Client × Int) : Client × Reply := (job.1, .written job.2)

def Worker.held (w : Worker Client) : Multiset (Client × Reply) :=
  (w.jobs.map written : List _) + (w.working.toList.map written : List _) + (w.replies.map written : List _)

namespace Worker

variable {w : Worker Client} {job : Client × Int} {rest : List (Client × Int)}

theorem card_held (w : Worker Client) : w.held.card = w.jobs.length + w.working.toList.length + w.replies.length := by
  simp only [held, Multiset.card_add, Multiset.coe_card, List.length_map]

theorem held_push : (w.push job).held = w.held + {written job} := by
  simp only [held, push, List.map_append, List.map_singleton, ← Multiset.coe_add, Multiset.coe_singleton]
  abel

theorem held_begin (hworking : w.working = none) (hjobs : w.jobs = job :: rest) : (w.begin job rest).held = w.held := by
  simp only [held, begin, hworking, hjobs, List.map_cons, Option.toList, ← Multiset.cons_coe, ← Multiset.singleton_add,
    List.map_nil, Multiset.coe_nil]
  abel

theorem held_finish (hworking : w.working = some job) : (w.finish job).held = w.held := by
  simp only [held, finish, hworking, List.map_append, List.map_singleton, ← Multiset.coe_add, Multiset.coe_singleton,
    Option.toList, List.map_nil, Multiset.coe_nil]
  abel

theorem held_pop (hreplies : w.replies = job :: rest) : (w.pop rest).held + {written job} = w.held := by
  simp only [held, pop, hreplies, List.map_cons, ← Multiset.cons_coe, ← Multiset.singleton_add]
  abel

end Worker

def Pc.unsent : Pc Client → Multiset (Client × Reply)
  | .chunks client rest _ => (rest.map (fun chunk => (client, Reply.written chunk)) : List _)
  | .sending client r _   => {(client, r)}
  | _                     => 0

namespace State

def requested (s : State Client n) : Multiset (Client × Reply) := (s.received.map expected).sum

def held (s : State Client n) : Multiset (Client × Reply) := ∑ w, (s.workers w).held

theorem unsent_next (events : List Socket) : (next events : Pc Client).unsent = 0 := by
  cases events <;> rfl

theorem unsent_nextChunk (client : Client) (events : List Socket) (chunks : List Int) :
    (nextChunk client events chunks).unsent = (chunks.map (fun chunk => (client, Reply.written chunk)) : List _) := by
  cases chunks with
  | nil => exact unsent_next events
  | cons => rfl

theorem sum_setWorker {M : Type} [AddCommMonoid M] (f : Worker Client → M) (s : State Client n) (w : Fin n)
    (worker : Worker Client) (d d' : M) (h : f worker + d = f (s.workers w) + d') :
    ∑ v, f ((s.setWorker w worker).workers v) + d = ∑ v, f (s.workers v) + d' := by
  have hrest : ∀ v ∈ Finset.univ.erase w, f ((s.setWorker w worker).workers v) = f (s.workers v) := fun v hv => by
    unfold setWorker
    simp only [Function.update_of_ne (Finset.ne_of_mem_erase hv)]
  have hself : (s.setWorker w worker).workers w = worker := by
    unfold setWorker
    exact Function.update_self w worker s.workers
  rw [← Finset.add_sum_erase _ _ (Finset.mem_univ w),
    ← Finset.add_sum_erase _ (fun v => f (s.workers v)) (Finset.mem_univ w), Finset.sum_congr rfl hrest, hself,
    add_right_comm, h, add_right_comm]

theorem held_push (s : State Client n) (w : Fin n) (job : Client × Int) :
    (s.setWorker w ((s.workers w).push job)).held = s.held + {written job} := by
  have hsum := sum_setWorker Worker.held s w ((s.workers w).push job) 0 _ ((add_zero _).trans Worker.held_push)
  rwa [add_zero] at hsum

theorem held_setWorker {s : State Client n} {w : Fin n} {worker : Worker Client}
    (hw : worker.held = (s.workers w).held) : (s.setWorker w worker).held = s.held := by
  have hsum := sum_setWorker Worker.held s w worker 0 0 (by rw [hw])
  rwa [add_zero, add_zero] at hsum

theorem held_pop {s : State Client n} {w : Fin n} {job : Client × Int} {replies : List (Client × Int)}
    (hreplies : (s.workers w).replies = job :: replies) :
    (s.setWorker w ((s.workers w).pop replies)).held + {written job} = s.held := by
  have hsum := sum_setWorker Worker.held s w ((s.workers w).pop replies) _ 0
    ((Worker.held_pop hreplies).trans (add_zero _).symm)
  rwa [add_zero] at hsum

/-- Every reply that is to come is held by someone, unless the server thread has raised. -/
structure Conserved (s : State Client n) : Prop where
  sent   : (s.sent : Multiset (Client × Reply)) + s.held + s.pc.unsent ≤ s.requested
  all    : s.pc ≠ .raised → (s.sent : Multiset (Client × Reply)) + s.held + s.pc.unsent = s.requested
  raised : s.pc = .raised → (∃ x ∈ s.received, x.2 = .malformed) ∨ ∃ client, s.connected client = false

theorem Conserved.of_eq {s : State Client n}
    (h : (s.sent : Multiset (Client × Reply)) + s.held + s.pc.unsent = s.requested)
    (hpc : s.pc = .raised → (∃ x ∈ s.received, x.2 = .malformed) ∨ ∃ client, s.connected client = false) : s.Conserved :=
  ⟨h.le, fun _ => h, hpc⟩

theorem Conserved.all_of {s : State Client n} (h : s.Conserved) {pc : Pc Client} (hpc : s.pc = pc) (hr : pc ≠ .raised) :
    (s.sent : Multiset (Client × Reply)) + s.held + pc.unsent = s.requested :=
  hpc ▸ h.all (hpc ▸ hr)

theorem conserved_init : (init : State Client n).Conserved := by
  refine .of_eq ?_ (fun h => (nomatch h))
  show 0 + ∑ _w : Fin n, (0 + 0 + 0 : Multiset (Client × Reply)) + 0 = 0
  simp

theorem next_ne_raised (events : List Socket) : (next events : Pc Client) ≠ .raised := by
  cases events <;> exact fun h => (nomatch h)

theorem nextChunk_ne_raised (client : Client) (events : List Socket) (chunks : List Int) :
    nextChunk client events chunks ≠ .raised := by
  cases chunks with
  | nil => exact next_ne_raised events
  | cons => exact fun h => (nomatch h)

theorem Conserved.congr {s s' : State Client n} (h : s.Conserved) (hsent : s'.sent = s.sent)
    (hworkers : s'.workers = s.workers) (hpc : s'.pc = s.pc) (hreceived : s'.received = s.received)
    (hconnected : ∀ client, s.connected client = false → s'.connected client = false) : s'.Conserved := by
  have hheld : s'.held = s.held := by rw [held, held, hworkers]
  have hrequested : s'.requested = s.requested := by rw [requested, requested, hreceived]
  refine ⟨?_, ?_, ?_⟩
  · rw [hsent, hheld, hpc, hrequested]
    exact h.sent
  · rw [hsent, hheld, hpc, hrequested]
    exact h.all
  · rw [hpc, hreceived]
    exact fun hr => (h.raised hr).imp_right (fun ⟨client, hc⟩ => ⟨client, hconnected client hc⟩)

theorem Conserved.setWorker {s : State Client n} (h : s.Conserved) {w : Fin n} {worker : Worker Client}
    (hw : worker.held = (s.workers w).held) : (s.setWorker w worker).Conserved := by
  have hheld := held_setWorker hw
  refine ⟨?_, ?_, h.raised⟩
  · rw [hheld]
    exact h.sent
  · rw [hheld]
    exact h.all

theorem unsent_handle {x : Client × Request} (hx : x.2 ≠ .malformed) (events : List Socket) :
    (handle x.1 events x.2).unsent = expected x := by
  obtain ⟨client, r⟩ := x
  cases r with
  | writeChunks minChunk maxChunk => exact unsent_nextChunk client events (range minChunk maxChunk)
  | getStatistics => rfl
  | unknown => exact unsent_next events
  | malformed => exact absurd rfl hx

theorem handle_eq_raised {x : Client × Request} {events : List Socket} (h : handle x.1 events x.2 = .raised) :
    x.2 = .malformed := by
  obtain ⟨client, r⟩ := x
  cases r with
  | writeChunks minChunk maxChunk => exact absurd h (nextChunk_ne_raised client events _)
  | getStatistics => cases h
  | unknown => exact absurd h (next_ne_raised events)
  | malformed => rfl

variable [DecidableEq Client] {limits : Limits}

/-- **No action loses a reply or makes up one.** -/
theorem Conserved.step {s : State Client n} (h : s.Conserved) {a : Action Client n} {s' : State Client n}
    (hs : AsyncRpc.step limits s a = some s') : s'.Conserved := by
  cases step_cases hs with
  | request client r hconnected => exact h.congr rfl rfl rfl rfl (fun _ => id)
  | disconnect client =>
    refine h.congr rfl rfl rfl rfl (fun c hc => ?_)
    show (if c = client then false else s.connected c) = false
    rw [hc, ite_self]
  | read client hunread => exact h.congr rfl rfl rfl rfl (fun _ => id)
  | poll frontend backend hpc hready =>
    have hall := h.all_of hpc (fun hr => (nomatch hr))
    exact .of_eq hall (fun hr => (nomatch hr))
  | @recvRequest client x events hpc hx =>
    have hall := h.all_of hpc (fun hr => (nomatch hr))
    have hrequested : ((s.received ++ [x]).map expected).sum = s.requested + expected x := by
      rw [List.map_append, List.sum_append, List.map_singleton, List.sum_singleton]
      rfl
    have hheld : (s.sent : Multiset (Client × Reply)) + s.held + expected x = s.requested + expected x :=
      congrArg (· + expected x) ((add_zero _).symm.trans hall)
    by_cases hm : x.2 = .malformed
    · have hpc' : handle x.1 events x.2 = .raised := by rw [hm]; rfl
      refine ⟨?_, fun hr => absurd hpc' hr, fun _ => .inl ⟨x, List.mem_append_right _ List.mem_cons_self, hm⟩⟩
      show (s.sent : Multiset (Client × Reply)) + s.held + (handle x.1 events x.2).unsent ≤
        ((s.received ++ [x]).map expected).sum
      rw [hrequested, ← hheld, hpc']
      exact add_le_add_right (Multiset.zero_le _) _
    · refine .of_eq ?_ (fun hr => absurd (handle_eq_raised hr) hm)
      show (s.sent : Multiset (Client × Reply)) + s.held + (handle x.1 events x.2).unsent =
        ((s.received ++ [x]).map expected).sum
      rw [unsent_handle hm, hrequested]
      exact hheld
  | @sendJob w client chunk chunks events hpc hroom =>
    refine .of_eq ?_ (fun hpc => absurd hpc (nextChunk_ne_raised _ _ _))
    show (s.sent : Multiset (Client × Reply)) + (s.setWorker w ((s.workers w).push (client, chunk))).held +
      (nextChunk client events chunks).unsent = s.requested
    rw [unsent_nextChunk, held_push, ← add_assoc, add_assoc]
    exact h.all_of hpc (fun hr => (nomatch hr))
  | @recvReply w client chunk replies events hpc hreplies =>
    refine .of_eq ?_ (fun hr => (nomatch hr))
    show (s.sent : Multiset (Client × Reply)) + (s.setWorker w ((s.workers w).pop replies)).held +
      {(client, .written chunk)} = s.requested
    rw [add_assoc]
    exact (congrArg _ (held_pop hreplies)).trans ((add_zero _).symm.trans (h.all_of hpc (fun hr => (nomatch hr))))
  | @send client r events hpc hconnected hroom =>
    refine .of_eq ?_ (fun hr => absurd hr (next_ne_raised events))
    show ((s.sent ++ [(client, r)] : List _) : Multiset (Client × Reply)) + s.held + (next events).unsent = s.requested
    rw [unsent_next, ← Multiset.coe_add, add_zero, add_right_comm]
    exact h.all_of hpc (fun hr => (nomatch hr))
  | @gone client r events hpc hgone =>
    refine ⟨?_, fun hr => absurd rfl hr, fun _ => .inr ⟨client, hgone⟩⟩
    show (s.sent : Multiset (Client × Reply)) + s.held + 0 ≤ s.requested
    rw [← h.all_of hpc (fun hr => (nomatch hr))]
    exact add_le_add_right (Multiset.zero_le _) _
  | take w hworking hjobs => exact h.setWorker (Worker.held_begin hworking hjobs)
  | finish w hworking hroom => exact h.setWorker (Worker.held_finish hworking)

end State

/-! ## All is done in the end -/

/-- How many steps a request, what a worker has and the state of the server thread can still take. -/
def Request.weight : Request → Nat
  | .writeChunks minChunk maxChunk => 6 * (range minChunk maxChunk).length + 3
  | _                              => 3

def Worker.weight (w : Worker Client) : Nat := 5 * w.jobs.length + 4 * w.working.toList.length + 3 * w.replies.length

def Pc.weight : Pc Client → Nat
  | .polling         => 2
  | .events _        => 1
  | .chunks _ rest _ => 6 * rest.length + 2
  | .sending _ _ _   => 3
  | .raised          => 0

namespace State

def load (s : State Client n) : Nat := (s.inbox.map (fun x => x.2.weight)).sum + ∑ w, (s.workers w).weight

def weight (s : State Client n) : Nat := s.load + s.pc.weight

theorem weight_next (events : List Socket) : (next events : Pc Client).weight ≤ 2 := by
  cases events with
  | nil => exact le_refl 2
  | cons => exact Nat.le_succ 1

theorem weight_nextChunk (client : Client) (events : List Socket) (chunks : List Int) :
    (nextChunk client events chunks).weight ≤ 6 * chunks.length + 2 := by
  cases chunks with
  | nil => exact weight_next events
  | cons => exact le_refl _

theorem weight_handle (client : Client) (r : Request) (events : List Socket) :
    (handle client events r).weight ≤ r.weight := by
  cases r with
  | writeChunks minChunk maxChunk => exact (weight_nextChunk client events _).trans (Nat.le_succ _)
  | getStatistics => exact le_refl 3
  | unknown => exact (weight_next events).trans (Nat.le_succ 2)
  | malformed => exact Nat.zero_le 3

theorem load_setWorker (s : State Client n) (w : Fin n) (worker : Worker Client) :
    (s.setWorker w worker).load + (s.workers w).weight = s.load + worker.weight := by
  have hsum := sum_setWorker Worker.weight s w worker _ _ (Nat.add_comm worker.weight (s.workers w).weight)
  show _ + _ + _ = _ + _ + _
  rw [Nat.add_assoc, hsum, Nat.add_assoc]
  rfl

variable [DecidableEq Client] {limits : Limits}

theorem load_eraseP {inbox : List (Client × Request)} {client : Client} {x : Client × Request}
    (h : inbox.find? (fun x => x.1 = client) = some x) :
    ((inbox.eraseP (fun x => x.1 = client)).map (fun x => x.2.weight)).sum + x.2.weight =
      (inbox.map (fun x => x.2.weight)).sum := by
  obtain ⟨hx, before, after, rfl, hbefore⟩ := List.find?_eq_some_iff_append.1 h
  rw [List.eraseP_append_right _ (fun y hy => by simpa using hbefore y hy),
    List.eraseP_cons_of_pos (p := fun x : Client × Request => decide (x.1 = client)) hx]
  simp only [List.map_append, List.map_cons, List.sum_append, List.sum_cons]
  omega

/-- **Each step of the server takes something off.** -/
theorem weight_step {s s' : State Client n} {a : Action Client n} (ha : a.isServer = true)
    (hs : AsyncRpc.step limits s a = some s') : s'.weight < s.weight := by
  cases step_cases hs with
  | request | disconnect | read => cases ha
  | poll frontend backend hpc hready =>
    unfold weight
    rw [hpc]
    exact Nat.lt_succ_self _
  | @recvRequest client x events hpc hx =>
    have hweight : s.weight = s.load + 1 := by rw [weight, hpc]; rfl
    have hload := load_eraseP hx
    have hle := weight_handle x.1 x.2 events
    have hs : s.load = (s.inbox.map (fun x => x.2.weight)).sum + ∑ w, (s.workers w).weight := rfl
    show ((s.inbox.eraseP (fun x => x.1 = client)).map (fun x => x.2.weight)).sum + ∑ w, (s.workers w).weight +
      (handle x.1 events x.2).weight < _
    omega
  | @sendJob w client chunk chunks events hpc hroom =>
    have hweight : s.weight = s.load + (6 * (chunks.length + 1) + 2) := by rw [weight, hpc]; rfl
    have hload := load_setWorker s w ((s.workers w).push (client, chunk))
    have hpush : ((s.workers w).push (client, chunk)).weight = (s.workers w).weight + 5 := by
      simp only [Worker.weight, Worker.push, List.length_append, List.length_singleton]
      omega
    have hle := weight_nextChunk client events chunks
    show (s.setWorker w ((s.workers w).push (client, chunk))).load + (nextChunk client events chunks).weight < _
    omega
  | @recvReply w client chunk replies events hpc hreplies =>
    have hweight : s.weight = s.load + 1 := by rw [weight, hpc]; rfl
    have hload := load_setWorker s w ((s.workers w).pop replies)
    have hpop : ((s.workers w).pop replies).weight + 3 = (s.workers w).weight := by
      simp only [Worker.weight, Worker.pop, hreplies, List.length_cons]
      omega
    show (s.setWorker w ((s.workers w).pop replies)).load + 3 < _
    omega
  | @send client r events hpc hconnected hroom =>
    have hweight : s.weight = s.load + 3 := by rw [weight, hpc]; rfl
    have hle : (next events : Pc Client).weight ≤ 2 := weight_next events
    show s.load + (next events).weight < _
    omega
  | gone hpc hgone =>
    have hweight : s.weight = s.load + 3 := by rw [weight, hpc]; rfl
    show s.load + 0 < _
    omega
  | @take w job jobs hworking hjobs =>
    have hload := load_setWorker s w ((s.workers w).begin job jobs)
    have hbegin : ((s.workers w).begin job jobs).weight + 1 = (s.workers w).weight := by
      simp only [Worker.weight, Worker.begin, hworking, hjobs, List.length_cons, Option.toList, List.length_nil]
      omega
    show (s.setWorker w ((s.workers w).begin job jobs)).load + s.pc.weight < s.load + s.pc.weight
    omega
  | @finish w job hworking hroom =>
    have hload := load_setWorker s w ((s.workers w).finish job)
    have hfinish : ((s.workers w).finish job).weight + 1 = (s.workers w).weight := by
      simp only [Worker.weight, Worker.finish, hworking, List.length_append, List.length_cons, Option.toList,
        List.length_nil]
      omega
    show (s.setWorker w ((s.workers w).finish job)).load + s.pc.weight < s.load + s.pc.weight
    omega

/-! ## The server goes on -/

structure Pending (s : State Client n) (events : List Socket) : Prop where
  nodup    : events.Nodup
  frontend : .frontend ∈ events → s.inbox ≠ []
  backend  : .backend ∈ events → ∃ w, (s.workers w).replies ≠ []

def Polled (s : State Client n) : Prop :=
  match s.pc with
  | .events events          => events ≠ [] ∧ s.Pending events
  | .chunks _ chunks events => chunks ≠ [] ∧ s.Pending events
  | .sending _ _ events     => s.Pending events
  | _                       => True

section
variable {s s' : State Client n} {events : List Socket}
omit [DecidableEq Client]

theorem Pending.mono (h : s.Pending events) (hinbox : s.inbox ≠ [] → s'.inbox ≠ [])
    (hreplies : ∀ w, (s.workers w).replies ≠ [] → (s'.workers w).replies ≠ []) : s'.Pending events :=
  ⟨h.nodup, fun hf => hinbox (h.frontend hf), fun hb => (h.backend hb).imp hreplies⟩

theorem Polled.mono (h : s.Polled) (hpc : s'.pc = s.pc) (hinbox : s.inbox ≠ [] → s'.inbox ≠ [])
    (hreplies : ∀ w, (s.workers w).replies ≠ [] → (s'.workers w).replies ≠ []) : s'.Polled := by
  unfold Polled at h ⊢
  rw [hpc]
  cases hp : s.pc with
  | events events =>
    rw [hp] at h
    exact ⟨h.1, h.2.mono hinbox hreplies⟩
  | chunks client chunks events =>
    rw [hp] at h
    exact ⟨h.1, h.2.mono hinbox hreplies⟩
  | sending client r events =>
    rw [hp] at h
    exact h.mono hinbox hreplies
  | _ => trivial

theorem polled_of_next (hpc : s.pc = next events) (h : s.Pending events) : s.Polled := by
  unfold Polled
  rw [hpc]
  cases events with
  | nil => trivial
  | cons e events => exact ⟨List.cons_ne_nil e events, h⟩

theorem polled_of_nextChunk {client : Client} {chunks : List Int} (hpc : s.pc = nextChunk client events chunks)
    (h : s.Pending events) : s.Polled := by
  cases chunks with
  | nil => exact polled_of_next hpc h
  | cons chunk chunks =>
    unfold Polled
    rw [hpc]
    exact ⟨List.cons_ne_nil chunk chunks, h⟩

theorem polled_of_handle {client : Client} {r : Request} (hpc : s.pc = handle client events r) (h : s.Pending events) :
    s.Polled := by
  cases r with
  | writeChunks minChunk maxChunk => exact polled_of_nextChunk hpc h
  | getStatistics =>
    unfold Polled
    rw [hpc]
    exact h
  | unknown => exact polled_of_next hpc h
  | malformed =>
    unfold Polled
    rw [hpc]
    trivial

theorem replies_setWorker {w : Fin n} {worker : Worker Client}
    (h : (s.workers w).replies ≠ [] → worker.replies ≠ []) :
    ∀ v, (s.workers v).replies ≠ [] → ((s.setWorker w worker).workers v).replies ≠ [] := by
  intro v hv
  unfold setWorker
  by_cases hvw : v = w
  · subst hvw
    simp only [Function.update_self]
    exact h hv
  · simp only [Function.update_of_ne hvw]
    exact hv

theorem pending_of_ready {frontend backend : Bool} (h : s.ready frontend backend = some events) : s.Pending events := by
  unfold ready at h
  obtain ⟨⟨hf, hb⟩, h⟩ := Option.ite_none_right_eq_some.1 h
  obtain rfl := Option.some.inj h
  cases frontend <;> cases backend
  · exact ⟨List.nodup_nil, fun hm => (nomatch hm), fun hm => (nomatch hm)⟩
  · exact ⟨List.nodup_singleton _, fun hm => (nomatch List.mem_singleton.1 hm), fun _ => hb rfl⟩
  · exact ⟨List.nodup_singleton _, fun _ => hf rfl, fun hm => (nomatch List.mem_singleton.1 hm)⟩
  · exact ⟨by decide, fun _ => hf rfl, fun _ => hb rfl⟩

end

theorem Polled.step {s s' : State Client n} (h : s.Polled) {a : Action Client n}
    (hs : AsyncRpc.step limits s a = some s') : s'.Polled := by
  cases step_cases hs with
  | request client r hconnected =>
    exact h.mono rfl (fun _ => List.append_ne_nil_of_right_ne_nil _ (List.cons_ne_nil _ _)) (fun _ => id)
  | disconnect client | read client hunread => exact h.mono rfl id (fun _ => id)
  | @poll frontend backend e events hpc hready =>
    have hpending := pending_of_ready hready
    exact ⟨List.cons_ne_nil e events, hpending.nodup, hpending.frontend, hpending.backend⟩
  | recvRequest client hpc hx =>
    unfold Polled at h
    rw [hpc] at h
    obtain ⟨hnotMem, hnodup⟩ := List.nodup_cons.1 h.2.nodup
    refine polled_of_handle rfl ?_
    exact ⟨hnodup, fun hf => absurd hf hnotMem, fun hb => h.2.backend (List.mem_cons_of_mem _ hb)⟩
  | sendJob w hpc hroom =>
    unfold Polled at h
    rw [hpc] at h
    exact polled_of_nextChunk rfl (h.2.mono id (replies_setWorker id))
  | recvReply w hpc hreplies =>
    unfold Polled at h
    rw [hpc] at h
    obtain ⟨hnotMem, hnodup⟩ := List.nodup_cons.1 h.2.nodup
    exact ⟨hnodup, fun hf => h.2.frontend (List.mem_cons_of_mem _ hf), fun hb => absurd hb hnotMem⟩
  | send hpc hconnected hroom =>
    unfold Polled at h
    rw [hpc] at h
    exact polled_of_next rfl (h.mono id (fun _ => id))
  | gone hpc hgone => trivial
  | take w hworking hjobs => exact h.mono rfl id (replies_setWorker id)
  | finish w hworking hroom =>
    exact h.mono rfl id (replies_setWorker (fun _ => List.append_ne_nil_of_right_ne_nil _ (List.cons_ne_nil _ _)))

structure Quiet (s : State Client n) : Prop where
  inbox   : s.inbox = []
  pc      : s.pc = .polling
  workers : ∀ w, (s.workers w).jobs = [] ∧ (s.workers w).working = none ∧ (s.workers w).replies = []

/-- The server thread has a job for a worker, and all workers have as many as they can and a reply that is not taken. -/
def Stuck (limits : Limits) (s : State Client n) : Prop :=
  (∃ client chunk chunks events, s.pc = .chunks client (chunk :: chunks) events) ∧
    ∀ w, limits.jobs ≤ (s.workers w).jobs.length ∧ (s.workers w).working.isSome ∧
      limits.replies ≤ (s.workers w).replies.length

def AwaitsClient (limits : Limits) (s : State Client n) : Prop :=
  ∃ client r events, s.pc = .sending client r events ∧ s.connected client = true ∧ limits.client ≤ s.unread client

theorem sendJob_isSome {s : State Client n} {client : Client} {chunk : Int} {chunks : List Int} {events : List Socket}
    (hpc : s.pc = .chunks client (chunk :: chunks) events) {w : Fin n} (hw : (s.workers w).jobs.length < limits.jobs) :
    (AsyncRpc.step limits s (.sendJob w)).isSome := by
  unfold AsyncRpc.step
  simp only [hpc, if_pos hw]
  rfl

theorem take_isSome {s : State Client n} {w : Fin n} (hworking : (s.workers w).working = none)
    (hjobs : (s.workers w).jobs ≠ []) : (AsyncRpc.step limits s (.take w)).isSome := by
  obtain ⟨job, jobs, hjobs⟩ := List.exists_cons_of_ne_nil hjobs
  unfold AsyncRpc.step
  simp only [hworking, hjobs]
  rfl

theorem finish_isSome {s : State Client n} {w : Fin n} {job : Client × Int} (hworking : (s.workers w).working = some job)
    (hw : (s.workers w).replies.length < limits.replies) : (AsyncRpc.step limits s (.finish w)).isSome := by
  unfold AsyncRpc.step
  simp only [hworking, if_pos hw]
  rfl

theorem chunks_goes_on {s : State Client n} {client : Client} {chunk : Int} {chunks : List Int} {events : List Socket}
    (hpc : s.pc = .chunks client (chunk :: chunks) events) :
    s.Stuck limits ∨ ∃ a, a.isServer = true ∧ (AsyncRpc.step limits s a).isSome := by
  by_cases hall : ∀ w, limits.jobs ≤ (s.workers w).jobs.length ∧ (s.workers w).working.isSome ∧
      limits.replies ≤ (s.workers w).replies.length
  · exact .inl ⟨⟨client, chunk, chunks, events, hpc⟩, hall⟩
  · right
    obtain ⟨w, hw⟩ := not_forall.1 hall
    by_cases hjobs : (s.workers w).jobs.length < limits.jobs
    · exact ⟨.sendJob w, rfl, sendJob_isSome hpc hjobs⟩
    · have hpos := limits.jobs_pos
      cases hworking : (s.workers w).working with
      | none => exact ⟨.take w, rfl, take_isSome hworking (List.ne_nil_of_length_pos (by omega))⟩
      | some job =>
        refine ⟨.finish w, rfl, finish_isSome hworking ?_⟩
        by_contra hreplies
        exact hw ⟨not_lt.1 hjobs, by rw [hworking]; rfl, not_lt.1 hreplies⟩

/-- **As long as something is left**, the server thread or a worker can go on, or waits for a client, or all of them wait
for each other. -/
theorem Polled.goes_on {s : State Client n} (h : s.Polled) (hpc : s.pc ≠ .raised) :
    s.Quiet ∨ s.Stuck limits ∨ s.AwaitsClient limits ∨ ∃ a, a.isServer = true ∧ (AsyncRpc.step limits s a).isSome := by
  unfold Polled at h
  cases hp : s.pc with
  | raised => exact absurd hp hpc
  | chunks client chunks events =>
    rw [hp] at h
    obtain ⟨chunk, chunks, rfl⟩ := List.exists_cons_of_ne_nil h.1
    exact .inr ((chunks_goes_on hp).imp_right .inr)
  | sending client r events =>
    by_cases hconnected : s.connected client = true
    · by_cases hroom : s.unread client < limits.client
      · refine .inr (.inr (.inr ⟨.send, rfl, ?_⟩))
        unfold AsyncRpc.step
        simp only [hp, if_pos hconnected, if_pos hroom]
        rfl
      · exact .inr (.inr (.inl ⟨client, r, events, hp, hconnected, not_lt.1 hroom⟩))
    · refine .inr (.inr (.inr ⟨.send, rfl, ?_⟩))
      unfold AsyncRpc.step
      simp only [hp, if_neg hconnected]
      rfl
  | events events =>
    rw [hp] at h
    refine .inr (.inr (.inr ?_))
    match events, h, hp with
    | .frontend :: events, h, hp =>
      obtain ⟨x, inbox, hinbox⟩ := List.exists_cons_of_ne_nil (h.2.frontend List.mem_cons_self)
      refine ⟨.recvRequest x.1, rfl, ?_⟩
      unfold AsyncRpc.step
      simp only [hp, hinbox, List.find?_cons_of_pos, decide_true]
      rfl
    | .backend :: events, h, hp =>
      obtain ⟨w, hw⟩ := h.2.backend List.mem_cons_self
      obtain ⟨job, replies, hreplies⟩ := List.exists_cons_of_ne_nil hw
      refine ⟨.recvReply w, rfl, ?_⟩
      unfold AsyncRpc.step
      simp only [hp, hreplies]
      rfl
    | [], h, _ => exact absurd rfl h.1
  | polling =>
    by_cases hquiet : s.inbox = [] ∧
        ∀ w, (s.workers w).jobs = [] ∧ (s.workers w).working = none ∧ (s.workers w).replies = []
    · exact .inl ⟨hquiet.1, hp, hquiet.2⟩
    · refine .inr (.inr (.inr ?_))
      by_cases hinbox : s.inbox = []
      · obtain ⟨w, hw⟩ := not_forall.1 (fun hw => hquiet ⟨hinbox, hw⟩)
        by_cases hreplies : (s.workers w).replies = []
        · cases hworking : (s.workers w).working with
          | some job =>
            have hpos := limits.replies_pos
            exact ⟨.finish w, rfl, finish_isSome hworking (by rwa [hreplies])⟩
          | none => exact ⟨.take w, rfl, take_isSome hworking (fun hj => hw ⟨hj, hworking, hreplies⟩)⟩
        · have hready : s.ready false true = some [.backend] :=
            if_pos ⟨fun hf => (nomatch hf), fun _ => ⟨w, hreplies⟩⟩
          refine ⟨.poll false true, rfl, ?_⟩
          unfold AsyncRpc.step
          simp only [hp, hready]
          rfl
      · have hready : s.ready true false = some [.frontend] := if_pos ⟨fun _ => hinbox, fun hb => (nomatch hb)⟩
        refine ⟨.poll true false, rfl, ?_⟩
        unfold AsyncRpc.step
        simp only [hp, hready]
        rfl

/-! ## All wait for each other -/

theorem Stuck.step {s s' : State Client n} (h : s.Stuck limits) {a : Action Client n}
    (hs : AsyncRpc.step limits s a = some s') : s'.Stuck limits := by
  obtain ⟨⟨client, chunk, chunks, events, hpc⟩, hfull⟩ := h
  cases step_cases hs with
  | request | disconnect | read => exact ⟨⟨client, chunk, chunks, events, hpc⟩, hfull⟩
  | poll _ _ hpc' | recvRequest _ hpc' | recvReply _ hpc' | send hpc' | gone hpc' =>
    rw [hpc] at hpc'
    cases hpc'
  | sendJob w hpc' hroom => exact absurd (hfull w).1 (not_le.2 hroom)
  | take w hworking hjobs =>
    have hsome := (hfull w).2.1
    rw [hworking] at hsome
    cases hsome
  | finish w hworking hroom => exact absurd (hfull w).2.2 (not_le.2 hroom)

omit [DecidableEq Client] in
theorem card_held (s : State Client n) : s.held.card = ∑ w, (s.workers w).held.card :=
  map_sum Multiset.cardHom _ _

omit [DecidableEq Client] in
theorem Stuck.room_lt {s : State Client n} (h : s.Stuck limits) (hall : s.Conserved) :
    s.sent.length + n * limits.room < s.requested.card := by
  obtain ⟨⟨client, chunk, chunks, events, hpc⟩, hfull⟩ := h
  have hle : n * limits.room ≤ s.held.card := by
    have hsum := Finset.card_nsmul_le_sum Finset.univ (fun w => (s.workers w).held.card) limits.room (fun w _ => ?_)
    · rwa [Finset.card_fin, smul_eq_mul, ← card_held] at hsum
    obtain ⟨hjobs, hworking, hreplies⟩ := hfull w
    obtain ⟨job, hworking⟩ := Option.isSome_iff_exists.1 hworking
    rw [Worker.card_held, hworking, Option.toList_some, List.length_singleton]
    exact Nat.add_le_add (Nat.add_le_add_right hjobs 1) hreplies
  have hcard := congrArg Multiset.card (hall.all (by rw [hpc]; exact fun hr => (nomatch hr)))
  have hunsent : s.pc.unsent.card = chunks.length + 1 := by
    rw [hpc, Pc.unsent, Multiset.coe_card, List.length_map, List.length_cons]
  rw [Multiset.card_add, Multiset.card_add, Multiset.coe_card, hunsent] at hcard
  omega

def Within (limits : Limits) (s : State Client n) : Prop :=
  ∀ w, (s.workers w).jobs.length ≤ limits.jobs ∧ (s.workers w).replies.length ≤ limits.replies

/-- The requests that are done fit into the workers and their sockets, and so does what is handed out of another one. -/
def Fits (limits : Limits) (s : State Client n) : Prop :=
  match s.pc with
  | .chunks client rest _ => ∃ before r, s.received = before ++ [(client, r)] ∧
    (∀ x ∈ before, x.2.nchunks ≤ n * limits.room) ∧ r.nchunks ≤ s.held.card + rest.length
  | _ => ∀ x ∈ s.received, x.2.nchunks ≤ n * limits.room

section
omit [DecidableEq Client]
variable {s s' : State Client n} {events : List Socket}

theorem Within.setWorker (h : s.Within limits) {w : Fin n} {worker : Worker Client}
    (hjobs : worker.jobs.length ≤ limits.jobs) (hreplies : worker.replies.length ≤ limits.replies) :
    (s.setWorker w worker).Within limits := by
  intro v
  unfold State.setWorker
  by_cases hvw : v = w
  · subst hvw
    simp only [Function.update_self]
    exact ⟨hjobs, hreplies⟩
  · simp only [Function.update_of_ne hvw]
    exact h v

theorem Within.card_held_le (h : s.Within limits) : s.held.card ≤ n * limits.room := by
  have hsum := Finset.sum_le_card_nsmul Finset.univ (fun w => (s.workers w).held.card) limits.room (fun w _ => ?_)
  · rwa [Finset.card_fin, smul_eq_mul, ← card_held] at hsum
  have hworking : (s.workers w).working.toList.length ≤ 1 := by
    cases (s.workers w).working with
    | none => exact Nat.zero_le 1
    | some job => exact le_refl 1
  rw [Worker.card_held]
  exact Nat.add_le_add (Nat.add_le_add (h w).1 hworking) (h w).2

theorem Fits.congr (h : s.Fits limits) (hpc : s'.pc = s.pc) (hreceived : s'.received = s.received)
    (hheld : s'.held = s.held) : s'.Fits limits := by
  unfold Fits at h ⊢
  rw [hpc, hreceived, hheld]
  exact h

theorem fits_of_next (hpc : s.pc = next events) (h : ∀ x ∈ s.received, x.2.nchunks ≤ n * limits.room) :
    s.Fits limits := by
  unfold Fits
  rw [hpc]
  cases events <;> exact h

/-- When the loop over the chunks is done, all of them have been taken by the workers. -/
theorem fits_of_nextChunk (hw : s.Within limits) {client : Client} {chunks : List Int} {r : Request}
    {before : List (Client × Request)} (hpc : s.pc = nextChunk client events chunks)
    (hreceived : s.received = before ++ [(client, r)]) (hbefore : ∀ x ∈ before, x.2.nchunks ≤ n * limits.room)
    (hr : r.nchunks ≤ s.held.card + chunks.length) : s.Fits limits := by
  cases chunks with
  | nil =>
    refine fits_of_next hpc (fun x hx => ?_)
    rw [hreceived] at hx
    rcases List.mem_append.1 hx with hx | hx
    · exact hbefore x hx
    · obtain rfl := List.mem_singleton.1 hx
      exact hr.trans hw.card_held_le
  | cons chunk chunks =>
    unfold Fits
    rw [hpc]
    exact ⟨before, r, hreceived, hbefore, hr⟩

theorem fits_of_handle (hw : s.Within limits) {x : Client × Request} {before : List (Client × Request)}
    (hpc : s.pc = handle x.1 events x.2) (hreceived : s.received = before ++ [x])
    (hbefore : ∀ x ∈ before, x.2.nchunks ≤ n * limits.room) : s.Fits limits := by
  obtain ⟨client, r⟩ := x
  have hnone : r.nchunks = 0 → ∀ x ∈ s.received, x.2.nchunks ≤ n * limits.room := fun hr x hx => by
    rw [hreceived] at hx
    rcases List.mem_append.1 hx with hx | hx
    · exact hbefore x hx
    · obtain rfl := List.mem_singleton.1 hx
      exact hr.le.trans (Nat.zero_le _)
  cases r with
  | writeChunks minChunk maxChunk => exact fits_of_nextChunk hw hpc hreceived hbefore (Nat.le_add_left _ _)
  | getStatistics =>
    unfold Fits
    rw [hpc]
    exact hnone rfl
  | unknown => exact fits_of_next hpc (hnone rfl)
  | malformed =>
    unfold Fits
    rw [hpc]
    exact hnone rfl

end

theorem Within.step {s s' : State Client n} (h : s.Within limits) {a : Action Client n}
    (hs : AsyncRpc.step limits s a = some s') : s'.Within limits := by
  cases step_cases hs with
  | request | disconnect | read | poll | recvRequest | send | gone => exact h
  | sendJob w hpc hroom =>
    refine Within.setWorker h ?_ (h w).2
    rw [Worker.push, List.length_append]
    exact hroom
  | recvReply w hpc hreplies =>
    refine Within.setWorker h (h w).1 ?_
    have hle := (h w).2
    rw [hreplies] at hle
    exact (Nat.le_succ _).trans hle
  | take w hworking hjobs =>
    refine Within.setWorker h ?_ (h w).2
    have hle := (h w).1
    rw [hjobs] at hle
    exact (Nat.le_succ _).trans hle
  | finish w hworking hroom =>
    refine Within.setWorker h (h w).1 ?_
    rw [Worker.finish, List.length_append]
    exact hroom

theorem Fits.step {s s' : State Client n} (hw : s.Within limits) (h : s.Fits limits) {a : Action Client n}
    (hs : AsyncRpc.step limits s a = some s') : s'.Fits limits := by
  have hw' := hw.step hs
  cases step_cases hs with
  | request | disconnect | read => exact h.congr rfl rfl rfl
  | poll frontend backend hpc hready =>
    unfold Fits at h
    rw [hpc] at h
    exact h
  | recvRequest client hpc hx =>
    unfold Fits at h
    rw [hpc] at h
    exact fits_of_handle hw' rfl rfl h
  | @sendJob w client chunk chunks events hpc hroom =>
    unfold Fits at h
    rw [hpc] at h
    obtain ⟨before, r, hreceived, hbefore, hr⟩ := h
    refine fits_of_nextChunk hw' rfl hreceived hbefore ?_
    show r.nchunks ≤ (s.setWorker w ((s.workers w).push (client, chunk))).held.card + chunks.length
    rw [held_push, Multiset.card_add, Multiset.card_singleton]
    rw [List.length_cons] at hr
    omega
  | recvReply w hpc hreplies =>
    unfold Fits at h
    rw [hpc] at h
    exact h
  | send hpc hconnected hroom =>
    unfold Fits at h
    rw [hpc] at h
    exact fits_of_next rfl h
  | gone hpc hgone =>
    unfold Fits at h
    rw [hpc] at h
    exact h
  | take w hworking hjobs => exact h.congr rfl rfl (held_setWorker (Worker.held_begin hworking hjobs))
  | finish w hworking hroom => exact h.congr rfl rfl (held_setWorker (Worker.held_finish hworking))

end State

/-! ## Runs -/

/-- What holds at any time: no reply is sent that was not asked for, or twice, or to another client; when nothing is left
to do, all are sent; until then the server can go on, but not forever, or waits for a client, or is stuck with its workers;
it is stuck only if more replies are outstanding than fit, and for ever; a request with more chunks than fit is not done;
and it stops at a malformed request or at a reply for a client that is gone, at nothing else. -/
structure State.Serves [DecidableEq Client] (limits : Limits) (s : State Client n) : Prop where
  only    : (s.sent : Multiset (Client × Reply)) ≤ s.requested
  all     : s.Quiet → (s.sent : Multiset (Client × Reply)) = s.requested
  goesOn  : s.pc ≠ .raised →
    s.Quiet ∨ s.Stuck limits ∨ s.AwaitsClient limits ∨ ∃ a, a.isServer = true ∧ (step limits s a).isSome
  ends    : ∀ as s', (∀ a ∈ as, a.isServer = true) → run (step limits) s as = some s' → as.length ≤ s.weight
  stuck   : s.Stuck limits → s.sent.length + n * limits.room < s.requested.card ∧
    ∀ as s', run (step limits) s as = some s' → s'.Stuck limits
  tooMany : ∀ x ∈ s.received, n * limits.room < x.2.nchunks → ∃ rest events, s.pc = .chunks x.1 rest events
  raised  : s.pc = .raised → (∃ x ∈ s.received, x.2 = .malformed) ∨ ∃ client, s.connected client = false

def oneMessage : Limits := ⟨1, 1, 1, Nat.one_pos, Nat.one_pos⟩

/-- Two clients and two workers: a request for two chunks, and one for the statistics while they are written. -/
def twoClients : List (Action Bool 2) :=
  [.request true (.writeChunks 5 7), .poll true false, .recvRequest true, .sendJob 0, .sendJob 1, .take 1, .take 0,
    .request false .getStatistics, .finish 1, .poll true true, .recvRequest false, .send, .recvReply 1, .send, .finish 0,
    .read true, .poll false true, .recvReply 0, .send]

end AsyncRpc
end FrbL1
