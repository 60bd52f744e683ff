import Mathlib.Algebra.Order.Ring.Rat
import Mathlib.Data.List.Basic
import FrbL1.Run
/-!
# RpcClient — the python client, one micro-step at a time

`RpcClient` is used by one thread.  `step` is one action of that thread (a pop, a poll, one `recv_multipart`, a return)
or the arrival of one reply on one socket, so that a run is any sequence of the client's calls with any timing, the
replies of each socket in order and those of different sockets in any order.

A socket is named by its server's key (`rsockets` is the inverse of `sockets`).  What `msgpack.unpackb` makes of a
reply's parts is a parameter: the length of the chunk list in a list reply, and whether a later reply has the six fields
of a `WriteChunks_Reply`; `none` and `false` stand for an exception.  Times are rationals, and how long a wait took is
part of the action.
-/
namespace FrbL1
namespace Client

open Trans

/-- A reply on a socket: the token in its first part, and the other parts. -/
structure Message (Parts : Type) where
  token : Int
  rest  : Parts
  deriving DecidableEq, Repr

abbrev Entry (Server Parts : Type) := Int × Option (Server × Parts)

/-- Where `wait_for_tokens` is. -/
inductive WaitPc (Server : Type)
  | popping (rest done : List Int)                      -- `for token in todo`
  | polling (received : Bool)                           -- `_receive`: before `poll.poll(timeout=0)`
  | reading (events : List Server) (nonblocking : Bool) -- `_receive`: `for s,e in events`
  | blocking                                            -- `_receive`: before `poll.poll(timeout)`
  | received                                            -- `_receive` returned True
  | returning                                           -- after the loop

/-- The local variables of `wait_for_tokens`.  `results` and `sockets` are one dictionary here, which a call without
`get_sockets` reads the second half of. -/
structure Wait (Server Parts : Type) where
  tokens  : List Int
  timeout : ℚ
  results : Int → Option (Server × Parts)
  todo    : List Int
  pc      : WaitPc Server

/-- One token of `wait_for_all_writes`: `got` are the replies so far, so that `n` is its length.  `start` is history,
not data: how many replies had been returned for the token before. -/
structure Segment (Server Parts : Type) where
  token : Int
  N     : Nat
  start : Nat
  got   : List (Server × Parts)

/-- The arguments and the local variables of `wait_for_all_writes`; `results` are the `got` of the segments `done`.
`called` is history, not data: how many replies of a token had been returned at the call. -/
structure AllWrites (Server Parts : Type) where
  args     : List (Int × Option Nat)
  called   : Int → Nat
  timeout₀ : ℚ
  timeout  : ℚ
  left     : List (Int × Option Nat)
  done     : List (Segment Server Parts)

/-- Who called `wait_for_tokens`. -/
inductive Caller (Server Parts : Type)
  | user
  | request (servers : List Server)
  | writeChunks (servers : List Server) (waitAll : Bool) (timeout : ℚ)
  | allWrites (a : AllWrites Server Parts) (g : Segment Server Parts)

inductive Pc (Server Parts : Type)
  | idle
  | waiting (w : Wait Server Parts) (k : Caller Server Parts)
  | allWrites (a : AllWrites Server Parts)                              -- `for token,chunklist in ..`
  | segment (a : AllWrites Server Parts) (g : Segment Server Parts)     -- `while n < N`

/-- A multi-server call with `wait=True`, and what its wait returned: `msgpack.unpackb` is then applied to each entry. -/
structure Call (Server Parts : Type) where
  servers : List Server
  tokens  : List Int
  entries : List (Entry Server Parts)

/-- The client, its sockets, and (from `arrived` on) the history of both, which nobody reads. -/
structure State (Server Parts : Type) where
  token    : Int
  received : Int → Option (List (Server × Parts))
  inbox    : Server → List (Message Parts)
  pc       : Pc Server Parts
  arrived  : List (Server × Message Parts)
  sent     : List (Server × Int)
  reads    : List (Server × Message Parts)
  returned : List (List (Entry Server Parts))
  calls    : List (Call Server Parts)
  writes   : List (AllWrites Server Parts)

variable {Server Parts : Type}

def State.init : State Server Parts where
  token    := 0
  received := fun _ => none
  inbox    := fun _ => []
  pc       := .idle
  arrived  := []
  sent     := []
  reads    := []
  returned := []
  calls    := []
  writes   := []

/-- The loop of every call over its servers: one more token for each request. -/
def sendAll : Int → List Server → List (Server × Int)
  | _, []      => []
  | t, k :: ks => (k, t + 1) :: sendAll (t + 1) ks

def State.handleParts [DecidableEq Server] (s : State Server Parts) (k : Server) (m : Message Parts) :
    State Server Parts :=
  { s with received := fun t => if t = m.token then some ((s.received t).getD [] ++ [(k, m.rest)]) else s.received t }

/-- What one wait returned for a token, and what all of them did, in order. -/
def deliveredIn (es : List (Entry Server Parts)) (t : Int) : List (Server × Parts) :=
  es.filterMap (fun e => if e.1 = t then e.2 else none)

def returnedIn (ess : List (List (Entry Server Parts))) (t : Int) : List (Server × Parts) :=
  ess.flatMap (deliveredIn · t)

def State.returnedFor (s : State Server Parts) (t : Int) : List (Server × Parts) := returnedIn s.returned t

/-- `timeout = max(0, t0 + timeout - tnow)`, where there is a timeout. -/
def adjust (timeout dt : ℚ) : ℚ := if 0 < timeout then max 0 (timeout - dt) else timeout

def State.beginWait (s : State Server Parts) (tokens : List Int) (timeout : ℚ) (k : Caller Server Parts) :
    State Server Parts :=
  { s with pc := .waiting ⟨tokens, timeout, fun _ => none, tokens, .popping tokens []⟩ k }

def State.beginAllWrites (s : State Server Parts) (args : List (Int × Option Nat)) (timeout : ℚ) :
    State Server Parts :=
  { s with pc := .allWrites ⟨args, fun t => (s.returnedFor t).length, timeout, timeout, args, []⟩ }

inductive Kind
  | simple
  | writeChunks (waitAll : Bool)

inductive Action (Server Parts : Type)
  | arrive (k : Server) (m : Message Parts)
  | request (kind : Kind) (servers : List Server) (wait : Bool) (timeout : ℚ)
  | waitForTokens (tokens : List Int) (timeout : ℚ)
  | waitForAllWrites (chunklists : List (Option Nat)) (tokens : List Int) (timeout : ℚ)
  | popToken
  | popped
  | poll (events : List Server)
  | recvMultipart
  | eventsDone
  | adjustTimeout (dt : ℚ)
  | waitReturns (dt : ℚ)
  | nextToken
  | nextReply

section
variable [DecidableEq Server] (chunkListLen : Parts → Option Nat) (unpacksReply : Parts → Bool)

/-- What a call does with the result of its `wait_for_tokens`. -/
def State.afterWait (s : State Server Parts) (w : Wait Server Parts) (dt : ℚ) :
    Caller Server Parts → State Server Parts
  | .user => { s with pc := .idle }
  | .request servers =>
    { s with pc := .idle, calls := s.calls ++ [⟨servers, w.tokens, w.tokens.map (fun t => (t, w.results t))⟩] }
  | .writeChunks servers waitAll timeout =>
    let s' : State Server Parts :=
      { s with pc := .idle, calls := s.calls ++ [⟨servers, w.tokens, w.tokens.map (fun t => (t, w.results t))⟩] }
    let chunklists : Option (List (Option Nat)) := w.tokens.mapM (fun t =>
      match w.results t with
      | none   => some none
      | some r => (chunkListLen r.2).map some)
    match chunklists with
    | none    => s'
    | some ls => if waitAll then s'.beginAllWrites (w.tokens.zip ls) timeout else s'
  | .allWrites a g =>
    let a' := { a with timeout := adjust a.timeout dt }
    match w.results g.token with
    | none   => { s with pc := .allWrites { a' with done := a.done ++ [g] } }
    | some r => { s with pc := if unpacksReply r.2 then .segment a' { g with got := g.got ++ [r] } else .idle }

/-- **One action.**  `none` where the client is not at that point of its code. -/
def step (s : State Server Parts) : Action Server Parts → Option (State Server Parts)
  | .arrive k m =>
    some { s with
      inbox := fun k' => if k' = k then s.inbox k' ++ [m] else s.inbox k', arrived := s.arrived ++ [(k, m)] }
  | .request kind servers wait timeout =>
    match s.pc with
    | .idle =>
      let sends := sendAll s.token servers
      let tokens := sends.map (·.2)
      let s' := { s with token := s.token + servers.length, sent := s.sent ++ sends }
      some (if wait then
        match kind with
        | .simple              => s'.beginWait tokens timeout (.request servers)
        | .writeChunks waitAll => s'.beginWait tokens timeout (.writeChunks servers waitAll timeout)
      else s')
    | _ => none
  | .waitForTokens tokens timeout =>
    match s.pc with
    | .idle => some (s.beginWait tokens timeout .user)
    | _     => none
  | .waitForAllWrites chunklists tokens timeout =>
    match s.pc with
    | .idle => some (s.beginAllWrites (tokens.zip chunklists) timeout)
    | _     => none
  | .popToken =>
    match s.pc with
    | .waiting ⟨tokens, timeout, results, todo, .popping (t :: rest) done⟩ k =>
      match s.received t with
      | none           => some { s with pc := .waiting ⟨tokens, timeout, results, todo, .popping rest done⟩ k }
      | some []        => some { s with pc := .idle }     -- `msgs.pop(0)` raises IndexError
      | some (r :: rs) => some { s with
          received := fun t' => if t' = t then (if rs = [] then none else some rs) else s.received t'
          pc       := .waiting ⟨tokens, timeout, fun t' => if t' = t then some r else results t', todo,
            .popping rest (done ++ [t])⟩ k }
    | _ => none
  | .popped =>
    match s.pc with
    | .waiting ⟨tokens, timeout, results, todo, .popping [] done⟩ k =>
      -- `for token in done: todo.remove(token)`
      let todo' := todo.diff done
      let pc' : WaitPc Server := if todo' = [] then .returning else .polling false
      some { s with pc := .waiting ⟨tokens, timeout, results, todo', pc'⟩ k }
    | _ => none
  -- any sockets with something to read; none at all also when nothing has arrived in time
  | .poll events =>
    if events.Nodup ∧ ∀ k ∈ events, s.inbox k ≠ [] then
      match s.pc with
      | .waiting ⟨tokens, timeout, results, todo, .polling received⟩ k =>
        let pc' : WaitPc Server :=
          if events ≠ [] then .reading events true
          else if received then .received
          else if timeout = 0 then .returning
          else .blocking
        some { s with pc := .waiting ⟨tokens, timeout, results, todo, pc'⟩ k }
      | .waiting ⟨tokens, timeout, results, todo, .blocking⟩ k =>
        if events ≠ [] then some { s with pc := .waiting ⟨tokens, timeout, results, todo, .reading events false⟩ k }
        else if 0 ≤ timeout then some { s with pc := .waiting ⟨tokens, timeout, results, todo, .returning⟩ k }
        else none
      | _ => none
    else none
  | .recvMultipart =>
    match s.pc with
    | .waiting ⟨tokens, timeout, results, todo, .reading (e :: events) nonblocking⟩ k =>
      match s.inbox e with
      | []      => none
      | m :: ms => some ({ s with
          inbox := fun e' => if e' = e then ms else s.inbox e'
          reads := s.reads ++ [(e, m)]
          pc    := .waiting ⟨tokens, timeout, results, todo, .reading events nonblocking⟩ k }.handleParts e m)
    | _ => none
  | .eventsDone =>
    match s.pc with
    | .waiting ⟨tokens, timeout, results, todo, .reading [] nonblocking⟩ k =>
      let pc' : WaitPc Server := if nonblocking then .polling true else .received
      some { s with pc := .waiting ⟨tokens, timeout, results, todo, pc'⟩ k }
    | _ => none
  | .adjustTimeout dt =>
    match s.pc with
    | .waiting ⟨tokens, timeout, results, todo, .received⟩ k =>
      some { s with pc := .waiting ⟨tokens, adjust timeout dt, results, todo, .popping todo []⟩ k }
    | _ => none
  | .waitReturns dt =>
    match s.pc with
    | .waiting ⟨tokens, timeout, results, todo, .returning⟩ k =>
      let w : Wait Server Parts := ⟨tokens, timeout, results, todo, .returning⟩
      let s' := { s with returned := s.returned ++ [tokens.map (fun t => (t, results t))] }
      some (s'.afterWait chunkListLen unpacksReply w dt k)
    | _ => none
  | .nextToken =>
    match s.pc with
    | .allWrites a =>
      match a.left with
      | []                  => some { s with pc := .idle, writes := s.writes ++ [a] }
      | (_, none) :: left   => some { s with pc := .allWrites { a with left := left } }
      | (t, some N) :: left =>
        some { s with pc := .segment { a with left := left } ⟨t, N, (s.returnedFor t).length, []⟩ }
    | _ => none
  | .nextReply =>
    match s.pc with
    | .segment a g =>
      some (if g.got.length < g.N then s.beginWait [g.token] a.timeout (.allWrites a g)
        else { s with pc := .allWrites { a with done := a.done ++ [g] } })
    | _ => none

end

end Client
end FrbL1
