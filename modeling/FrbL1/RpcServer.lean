import FrbL1.Run
/-!
# RpcServer — the L1 RPC server, its I/O threads and its clients

One server thread (`L1RpcServer::run`), the I/O threads that call `l1_write_request::status_changed`, and whoever calls
`do_shutdown`.  `step` is one atomic action of one of them: what a mutex protects, and what only the server thread
touches, is one action; everything else interleaves.

Of `do_shutdown` only the flag is kept, which it sets under `_q_mutex`; the stream's own threads are not part of the
system.  The handler's call of `_chunk_status->get` in its loop over the chunks is left out, since its results are not
used, and so is the `break` after a failed `recv`, which returns false with no other errno than EAGAIN.

`chunk->format_filename(pattern)` is code of ch_frb_io and a parameter.  Of ch_frb_io's output devices only this is
used: a write passed to `enqueue_write_request` gets any number of `status_changed` calls with `finished=false` and one
with `finished=true`, at any moment from inside that call onwards.  Calls with `finished=false` that come after the one
with `finished=true` has put its reply in the queue are left out.
-/
namespace FrbL1
namespace Rpc

/-- The routing identity a `ZMQ_ROUTER` socket puts in front of a request. -/
abbrev ClientId := List UInt8

/-- `ch_frb_io::assembled_chunk`, as far as the server reads it (`format_filename` reads the last three fields). -/
structure AssembledChunk where
  beamId    : Int
  fpgaBegin : UInt64
  fpgaEnd   : UInt64
  ichunk    : UInt64
  binning   : Int
  streamId  : Int
  deriving DecidableEq, Repr

structure WriteChunksReply where
  beam         : UInt64
  fpga0        : UInt64
  fpgaN        : UInt64
  filename     : String
  success      : Bool
  errorMessage : String
  deriving DecidableEq, Repr

/-- The chunk and the file a `WriteChunks_Reply` is about. -/
structure Key where
  beam     : UInt64
  fpga0    : UInt64
  fpgaN    : UInt64
  filename : String
  deriving DecidableEq, Repr

def WriteChunksReply.key (r : WriteChunksReply) : Key := ⟨r.beam, r.fpga0, r.fpgaN, r.filename⟩

/-- `l1_write_request`.  A null `client` means that nobody awaits the reply. -/
structure L1WriteRequest where
  chunk       : AssembledChunk
  filename    : String
  priority    : Int
  client      : Option ClientId
  token       : UInt32
  needRfiMask : Bool
  deriving DecidableEq, Repr

/-- `l1_backend_queue::entry`.  The last field is history, not data: whether `_shutdown` was unset at the enqueue. -/
structure Entry where
  client         : Option ClientId
  token          : UInt32
  reply          : WriteChunksReply
  beforeShutdown : Bool
  deriving DecidableEq, Repr

/-- A write passed to `enqueue_write_request` and not yet reported.  `result` is set between the two halves of
`status_changed(finished=true)`: the status map is updated, the backend queue not yet. -/
structure Pending where
  req    : L1WriteRequest
  result : Option (Bool × String)
  deriving DecidableEq, Repr

/-- The reply `status_changed` puts in the queue. -/
def statusChangedReply (w : L1WriteRequest) (success : Bool) (errorMessage : String) : WriteChunksReply where
  beam         := UInt64.ofInt w.chunk.beamId
  fpga0        := w.chunk.fpgaBegin
  fpgaN        := w.chunk.fpgaEnd - w.chunk.fpgaBegin
  filename     := w.filename
  success      := success
  errorMessage := errorMessage

/-- The entry of the list reply for one chunk.  `error_message` is never assigned there. -/
def listReplyEntry (w : L1WriteRequest) (success : Bool) : WriteChunksReply where
  beam         := UInt64.ofInt w.chunk.beamId
  fpga0        := w.chunk.fpgaBegin
  fpgaN        := w.chunk.fpgaEnd - w.chunk.fpgaBegin
  filename     := w.filename
  success      := success
  errorMessage := ""

def L1WriteRequest.key (w : L1WriteRequest) : Key :=
  ⟨UInt64.ofInt w.chunk.beamId, w.chunk.fpgaBegin, w.chunk.fpgaEnd - w.chunk.fpgaBegin, w.filename⟩

@[simp] theorem statusChangedReply_key (w : L1WriteRequest) (b : Bool) (e : String) :
    (statusChangedReply w b e).key = w.key := rfl

@[simp] theorem listReplyEntry_key (w : L1WriteRequest) (b : Bool) : (listReplyEntry w b).key = w.key := rfl

inductive Content
  | chunkList (rs : List WriteChunksReply)
  | written (r : WriteChunksReply)
  | status (status errorMessage : String)
  | other (packed : List UInt8)
  deriving DecidableEq, Repr

/-- What passes between the server and one client under one token: a `write_chunks` request it begins to handle, with
the chunks that were looked up for it, a request for any other function, and each message it sends. -/
inductive Traffic
  | writeChunks (keys : List Key)
  | otherRequest
  | message (content : Content)
  deriving DecidableEq, Repr

structure Event where
  client  : ClientId
  token   : UInt32
  traffic : Traffic
  deriving DecidableEq, Repr

/-- `WriteChunks_Request_v2`, as far as the handler uses it once the chunks are looked up. -/
structure WriteChunksRequest where
  filenamePattern : String
  priority        : Int
  needRfi         : Bool
  deriving DecidableEq, Repr

/-- The `write_chunks` branch of `_handle_request`, inside its loop over the chunks.  `current` is the request whose
`enqueue_write_request` call has not returned yet. -/
structure WriteJob where
  client  : ClientId
  token   : UInt32
  req     : WriteChunksRequest
  todo    : List AssembledChunk
  current : Option L1WriteRequest
  reply   : List WriteChunksReply
  deriving DecidableEq, Repr

/-- Where the server thread is in `run()`. -/
inductive Pc
  | top                     -- before `while (!is_shutdown())`
  | draining                -- inside `_check_backend_queue()`
  | receiving               -- inside `_frontend.recv()`
  | writing (job : WriteJob)
  | exited
  deriving DecidableEq, Repr

/-- The server, with the log of its traffic and whether a send has failed (both are history, read by nobody). -/
structure State where
  pc          : Pc
  shutdown    : Bool
  queue       : List Entry
  inflight    : List Pending
  chunkStatus : String → Option (String × String)
  log         : List Event
  sendFailed  : Bool

def State.init : State where
  pc          := .top
  shutdown    := false
  queue       := []
  inflight    := []
  chunkStatus := fun _ => none
  log         := []
  sendFailed  := false

/-- `chunk_status_map::set`. -/
def State.setStatus (s : State) (filename status errorMessage : String) : State :=
  { s with chunkStatus := fun f => if f = filename then some (status, errorMessage) else s.chunkStatus f }

/-- `chunk_status_map::get`. -/
def State.getStatus (s : State) (filename : String) : String × String :=
  (s.chunkStatus filename).getD ("UNKNOWN", "")

def State.logged (s : State) (client : ClientId) (token : UInt32) (traffic : Traffic) : State :=
  { s with log := s.log ++ [⟨client, token, traffic⟩] }

/-- `_send_frontend_message`: the three parts leave together, or the send failed. -/
def State.send (s : State) (client : ClientId) (token : UInt32) (content : Content) (ok : Bool) : State :=
  if ok then s.logged client token (.message content) else { s with sendFailed := true }

/-- What the queue's consumer does with an entry: forward the reply, if anyone awaits it. -/
def State.forward (s : State) (e : Entry) (ok : Bool) : State :=
  match e.client with
  | none   => s
  | some c => s.send c e.token (.written e.reply) ok

inductive Action
  -- the server thread, in the order of `run()`
  | isShutdown
  | checkBackendQueue (ok : Bool)
  | recvTimeout
  | recvIgnored
  | recvShutdown
  | recvStatus (client : ClientId) (token : UInt32) (pathname : String) (ok : Bool)
  | recvOther (client : ClientId) (token : UInt32) (packed : List UInt8) (ok : Bool)
  | recvWriteChunks (client : ClientId) (token : UInt32) (req : WriteChunksRequest) (chunks : List AssembledChunk)
  | enqueueWriteRequest
  | enqueueReturns (success : Bool)
  | sendList (ok : Bool)
  -- an I/O thread, in `status_changed` of the i-th pending write
  | statusChanged (i : Nat) (state errorMessage : String)
  | finished (i : Nat) (success : Bool) (state errorMessage : String)
  | enqueueWriteReply (i : Nat)
  -- any other thread
  | doShutdown
  | testEnqueue (chunk : AssembledChunk) (filename : String) (priority : Int)

section
variable (formatFilename : AssembledChunk → String → String)

/-- The `l1_write_request` the handler makes for one chunk. -/
def WriteJob.writeRequest (job : WriteJob) (chunk : AssembledChunk) : L1WriteRequest where
  chunk       := chunk
  filename    := formatFilename chunk job.req.filenamePattern
  priority    := job.req.priority
  client      := some job.client
  token       := job.token
  needRfiMask := job.req.needRfi

/-- **One atomic action.**  `none` where the thread is not at that point of its code. -/
def step (s : State) : Action → Option State
  | .isShutdown =>
    match s.pc with
    | .top => some { s with pc := if s.shutdown then .exited else .draining }
    | _    => none
  | .checkBackendQueue ok =>
    match s.pc, s.queue with
    | .draining, []     => some { s with pc := .receiving }
    | .draining, e :: q => some ({ s with queue := q }.forward e ok)
    | _, _              => none
  -- no message within 100 ms (`recv` returns false only with EAGAIN)
  | .recvTimeout =>
    match s.pc with
    | .receiving => some { s with pc := .top }
    | _          => none
  -- a message with a wrong number of parts, or a request whose handler throws or answers nothing
  | .recvIgnored =>
    match s.pc with
    | .receiving => some { s with pc := .top }
    | _          => none
  | .recvShutdown =>
    match s.pc with
    | .receiving => some { s with pc := .top, shutdown := true }
    | _          => none
  | .recvStatus c t pathname ok =>
    match s.pc with
    | .receiving =>
      let r := s.getStatus pathname
      some (({ s with pc := .top }.logged c t .otherRequest).send c t (.status r.1 r.2) ok)
    | _          => none
  | .recvOther c t packed ok =>
    match s.pc with
    | .receiving => some (({ s with pc := .top }.logged c t .otherRequest).send c t (.other packed) ok)
    | _          => none
  | .recvWriteChunks c t req chunks =>
    match s.pc with
    | .receiving =>
      let job : WriteJob := ⟨c, t, req, chunks, none, []⟩
      let keys := chunks.map (fun k => (job.writeRequest formatFilename k).key)
      some ({ s with pc := .writing job }.logged c t (.writeChunks keys))
    | _          => none
  | .enqueueWriteRequest =>
    match s.pc with
    | .writing ⟨c, t, req, k :: todo, none, reply⟩ =>
      let job : WriteJob := ⟨c, t, req, todo, none, reply⟩
      let w := job.writeRequest formatFilename k
      some { s with pc := .writing { job with current := some w }, inflight := s.inflight ++ [⟨w, none⟩] }
    | _ => none
  | .enqueueReturns success =>
    match s.pc with
    | .writing ⟨c, t, req, todo, some w, reply⟩ =>
      some { s with pc := .writing ⟨c, t, req, todo, none, reply ++ [listReplyEntry w success]⟩ }
    | _ => none
  | .sendList ok =>
    match s.pc with
    | .writing ⟨c, t, _, [], none, reply⟩ => some ({ s with pc := .top }.send c t (.chunkList reply) ok)
    | _ => none
  | .statusChanged i state err =>
    match s.inflight[i]? with
    | some p => some (s.setStatus p.req.filename state err)
    | none   => none
  | .finished i success state err =>
    match s.inflight[i]? with
    | some ⟨w, none⟩ =>
      some { s.setStatus w.filename state err with inflight := s.inflight.set i ⟨w, some (success, err)⟩ }
    | _ => none
  | .enqueueWriteReply i =>
    match s.inflight[i]? with
    | some ⟨w, some (success, err)⟩ =>
      some { s with
        inflight := s.inflight.eraseIdx i
        queue    := s.queue ++ [⟨w.client, w.token, statusChangedReply w success err, !s.shutdown⟩] }
    | _ => none
  | .doShutdown => some { s with shutdown := true }
  | .testEnqueue chunk filename priority =>
    some { s with inflight := s.inflight ++ [⟨⟨chunk, filename, priority, none, 0, false⟩, none⟩] }

end

end Rpc
end FrbL1
