import FrbL1.MsgpackCodec
import FrbL1.RpcArguments
import FrbL1.RpcServer
/-!
# RpcWire — what the python client sends, and what the server reads

A request is two packed objects, one behind the other: an array of the function's name and the token, and the arguments.
The client builds them from lists; the server converts them to the members of its own classes, by position.  Both sides
are modelled as they are, and `requests_read_back` says that they agree, argument by argument; `float` members are the
one place where the server keeps less than it is sent.  The replies to `write_chunks` are read back as they were packed.
-/
namespace FrbL1
namespace Wire

open Fallible (forall₂_of_mapM_some mapM_of_forall₂)
open Msgpack
open Requests (Outcome StreamArgs orEnd arg streamArgs getPacketRateArgs getPacketRateHistoryArgs toInt)
open Rpc (WriteChunksReply)

/-! ## The client -/

/-- The first object of every request. -/
def packHeader (c : Codec) (function : List Char) (token : Int) : Option (List UInt8) :=
  (Object.ofInt token).bind (fun token => (Object.ofList [.str function, token]).bind c.pack)

/-- The arguments of `write_chunks`. -/
structure WriteChunks where
  beams            : List Int
  minFpga          : Int
  maxFpga          : Int
  filenamePattern  : List Char
  priority         : Int
  dm               : Float
  dmError          : Float
  sweepWidth       : Float
  frequencyBinning : Int
  needRfi          : Option Bool

inductive Call
  | writeChunks (a : WriteChunks)
  | stream (acqName acqDev acqMeta : List Char) (acqBeams : List Int) (newStream : Bool)
  | getPacketRate (start period : Option Float)
  | getPacketRateHistory (l0nodes : Option (List (List Char))) (start stop period : Option Float)
  | getWritechunkStatus (filename : List Char)

def Call.function : Call → List Char
  | .writeChunks _                => "write_chunks".toList
  | .stream _ _ _ _ _             => "stream".toList
  | .getPacketRate _ _            => "get_packet_rate".toList
  | .getPacketRateHistory _ _ _ _ => "get_packet_rate_history".toList
  | .getWritechunkStatus _        => "get_writechunk_status".toList

def packInts (ns : List Int) : Option Object := (ns.mapM Object.ofInt).bind Object.ofList

def WriteChunks.requestArgs (a : WriteChunks) : Option (List Object) := do
  let beams ← packInts a.beams
  let minFpga ← Object.ofInt a.minFpga
  let maxFpga ← Object.ofInt a.maxFpga
  let frequencyBinning ← Object.ofInt a.frequencyBinning
  let priority ← Object.ofInt a.priority
  let requestArgs := [beams, minFpga, maxFpga, .float a.dm, .float a.dmError, .float a.sweepWidth, frequencyBinning,
    .str a.filenamePattern, priority]
  return match a.needRfi with
    | none         => requestArgs
    | some needRfi => requestArgs ++ [.bool needRfi]

/-- The second object of a request. -/
def Call.args : Call → Option Object
  | .writeChunks a => a.requestArgs.bind Object.ofList
  | .stream acqName acqDev acqMeta acqBeams newStream => do
    let acqBeams ← packInts acqBeams
    Object.ofList [.str acqName, .str acqDev, .str acqMeta, acqBeams, .bool newStream]
  | .getPacketRate start period => Object.ofList [.float (start.getD 0), .float (period.getD 0)]
  | .getPacketRateHistory l0nodes start stop period => do
    let l0nodes ← Object.ofList ((l0nodes.getD ["sum".toList]).map .str)
    Object.ofList [.float (start.getD 0), .float (stop.getD 0), .float (period.getD 0), l0nodes]
  | .getWritechunkStatus filename => some (.str filename)

def Call.send (c : Codec) (token : Int) (call : Call) : Option (List UInt8) := do
  let header ← packHeader c call.function token
  let args ← call.args
  let bytes ← c.pack args
  return header ++ bytes

/-! ## The server -/

structure RpcRequest where
  function : List Char
  token    : UInt32
  deriving DecidableEq

structure WriteChunksRequest where
  beams            : List Int
  minFpga          : UInt64
  maxFpga          : UInt64
  dm               : Float32
  dmError          : Float32
  sweepWidth       : Float32
  frequencyBinning : Int
  filenamePattern  : List Char
  priority         : Int

structure WriteChunksRequestV2 extends WriteChunksRequest where
  needRfi : Bool

/-- The element `i` of an array, converted; elements that are not there are members that stay uninitialised. -/
def element {α : Type} (o : Object) (i : Nat) (as : Object → Except Fault α) : Except Fault α := do
  let e ← o.elem i
  as e

/-- The conversion of an array to a class that is declared with `MSGPACK_DEFINE`. -/
def asClass {α : Type} (o : Object) (as : Except Fault α) : Except Fault α :=
  match o with
  | .array _ _ => as
  | _          => .error .typeError

def asRpcRequest (o : Object) : Except Fault RpcRequest := asClass o (do
  let function ← element o 0 Object.asString
  let token ← element o 1 Object.asUint32
  return { function, token })

def asWriteChunksRequest (o : Object) : Except Fault WriteChunksRequest := asClass o (do
  let beams ← element o 0 (Object.asVector Object.asInt)
  let minFpga ← element o 1 Object.asUint64
  let maxFpga ← element o 2 Object.asUint64
  let dm ← element o 3 Object.asFloat
  let dmError ← element o 4 Object.asFloat
  let sweepWidth ← element o 5 Object.asFloat
  let frequencyBinning ← element o 6 Object.asInt
  let filenamePattern ← element o 7 Object.asString
  let priority ← element o 8 Object.asInt
  return { beams, minFpga, maxFpga, dm, dmError, sweepWidth, frequencyBinning, filenamePattern, priority })

def asWriteChunksRequestV2 (o : Object) : Except Fault WriteChunksRequestV2 := do
  let req ← asWriteChunksRequest o
  let needRfi ← element o 9 Object.asBool
  return { req with needRfi }

/-- The two versions of a `write_chunks` request. -/
inductive WriteChunksArgs
  | v1 (req : WriteChunksRequest)
  | v2 (req : WriteChunksRequestV2)

def WriteChunksArgs.needRfiMask : WriteChunksArgs → Bool
  | .v1 _   => false
  | .v2 req => req.needRfi

/-- With neither 9 nor 10 arguments, the request that is used is uninitialised. -/
def writeChunksArgs (o : Object) : Except Outcome WriteChunksArgs := do
  let size ← orEnd o.size
  if size = 9 then (orEnd (asWriteChunksRequest o)).map .v1
  else if size = 10 then (orEnd (asWriteChunksRequestV2 o)).map .v2
  else .error .undefined

inductive Received
  | stream (a : StreamArgs)
  | getPacketRate (start period : Float)
  | getPacketRateHistory (start stop period : Float) (l0 : List (List Char))
  | writeChunks (a : WriteChunksArgs)
  | getWritechunkStatus (pathname : List Char)
  | other

def unpack (c : Codec) (msg : List UInt8) (offset : Nat) : Except Outcome (Object × Nat) :=
  match c.unpack msg offset with
  | some x => .ok x
  | none   => .error (.thrown "msgpack::unpack_error".toList)

def receiveArgs (c : Codec) (owned : List Int) (msg : List UInt8) (offset : Nat) (funcname : List Char) :
    Except Outcome Received :=
  if funcname = "stream".toList then do
    let (o, _) ← unpack c msg offset
    let a ← streamArgs owned o
    return .stream a
  else if funcname = "get_packet_rate".toList then do
    let (o, _) ← unpack c msg offset
    let (start, period) ← getPacketRateArgs o
    return .getPacketRate start period
  else if funcname = "get_packet_rate_history".toList then do
    let (o, _) ← unpack c msg offset
    let (start, stop, period, l0) ← getPacketRateHistoryArgs o
    return .getPacketRateHistory start stop period l0
  else if funcname = "write_chunks".toList then do
    let (o, _) ← unpack c msg offset
    let a ← writeChunksArgs o
    return .writeChunks a
  else if funcname = "get_writechunk_status".toList then do
    let (o, _) ← unpack c msg offset
    let pathname ← orEnd o.asString
    return .getWritechunkStatus pathname
  else return .other

/-- The beginning of `_handle_request`: the function's name, the token, and where the arguments begin. -/
def receiveHeader (c : Codec) (msg : List UInt8) : Except Outcome (RpcRequest × Nat) := do
  let (o, offset) ← unpack c msg 0
  let rpcreq ← orEnd (asRpcRequest o)
  return (rpcreq, offset)

/-- `_handle_request`, as far as it reads the message, on a server that has the beams `owned`. -/
def receive (c : Codec) (owned : List Int) (msg : List UInt8) : Except Outcome (RpcRequest × Received) := do
  let (rpcreq, offset) ← receiveHeader c msg
  let args ← receiveArgs c owned msg offset rpcreq.function
  return (rpcreq, args)

/-! ## Replies to `write_chunks` -/

/-- A `WriteChunks_Reply` as it is packed. -/
def replyObject (r : WriteChunksReply) : Option Object :=
  Object.ofList [.posInt r.beam, .posInt r.fpga0, .posInt r.fpgaN, .str r.filename.toList, .bool r.success,
    .str r.errorMessage.toList]

def packReply (c : Codec) (r : WriteChunksReply) : Option (List UInt8) := (replyObject r).bind c.pack

def packReplies (c : Codec) (rs : List WriteChunksReply) : Option (List UInt8) :=
  ((rs.mapM replyObject).bind Object.ofList).bind c.pack

/-- The client's class; its members are whatever was unpacked. -/
structure WriteChunkReply where
  beam     : Object
  fpga0    : Object
  fpgaN    : Object
  filename : Object
  success  : Object
  error    : Object

/-- `WriteChunkReply(*chunk)`, which takes exactly six arguments. -/
def writeChunkReply : Object → Option WriteChunkReply
  | .array n p => if h : n.toNat = 6 then
      some ⟨p ⟨0, by omega⟩, p ⟨1, by omega⟩, p ⟨2, by omega⟩, p ⟨3, by omega⟩, p ⟨4, by omega⟩, p ⟨5, by omega⟩⟩
    else none
  | _ => none

/-- A later reply, in `wait_for_all_writes`. -/
def unpackReply (c : Codec) (part : List UInt8) : Option WriteChunkReply := (c.unpackb part).bind writeChunkReply

/-- The first reply, in `write_chunks`. -/
def unpackReplies (c : Codec) (part : List UInt8) : Option (List WriteChunkReply) :=
  match c.unpackb part with
  | some (.array _ p) => (List.ofFn p).mapM writeChunkReply
  | _                 => none

/-! ## What the server should read -/

/-- The integers fit the members that they are for. -/
structure WriteChunks.Fits (a : WriteChunks) : Prop where
  beams            : ∀ b ∈ a.beams, Config.IsInt b
  minFpga          : 0 ≤ a.minFpga ∧ a.minFpga < 2 ^ 64
  maxFpga          : 0 ≤ a.maxFpga ∧ a.maxFpga < 2 ^ 64
  frequencyBinning : Config.IsInt a.frequencyBinning
  priority         : Config.IsInt a.priority

def Call.Fits : Call → Prop
  | .writeChunks a            => a.Fits
  | .stream _ _ _ acqBeams _  => (∀ b ∈ acqBeams, Config.IsInt b) ∧ acqBeams.length < 2 ^ 31
  | _                         => True

def WriteChunks.request (a : WriteChunks) : WriteChunksRequest where
  beams            := a.beams
  minFpga          := UInt64.ofNat a.minFpga.toNat
  maxFpga          := UInt64.ofNat a.maxFpga.toNat
  dm               := castFloat a.dm
  dmError          := castFloat a.dmError
  sweepWidth       := castFloat a.sweepWidth
  frequencyBinning := a.frequencyBinning
  filenamePattern  := a.filenamePattern
  priority         := a.priority

def WriteChunks.received (a : WriteChunks) : WriteChunksArgs :=
  match a.needRfi with
  | none         => .v1 a.request
  | some needRfi => .v2 { a.request with needRfi }

/-- Of the beams of a `stream` request a server keeps its own. -/
def Call.received (owned : List Int) : Call → Received
  | .writeChunks a => .writeChunks a.received
  | .stream acqName acqDev acqMeta acqBeams newStream =>
    .stream ⟨acqName, acqDev, acqMeta, newStream, acqBeams.length, acqBeams.filter (· ∈ owned)⟩
  | .getPacketRate start period => .getPacketRate (start.getD 0) (period.getD 0)
  | .getPacketRateHistory l0nodes start stop period =>
    .getPacketRateHistory (start.getD 0) (stop.getD 0) (period.getD 0) (l0nodes.getD ["sum".toList])
  | .getWritechunkStatus filename => .getWritechunkStatus filename

/-! ## Reading it -/

theorem element_ofList {α : Type} {os : List Object} {o e : Object} (h : Object.ofList os = some o) {i : Nat}
    (he : os[i]? = some e) (as : Object → Except Fault α) : element o i as = as e := by
  unfold element
  rw [Object.elem_ofList h he]
  rfl

theorem arg_ofList {α : Type} {os : List Object} {o e : Object} (h : Object.ofList os = some o) {i : Nat}
    (he : os[i]? = some e) (as : Object → Except Fault α) : arg o i as = orEnd (as e) := by
  unfold arg
  rw [Object.elem_ofList h he]
  rfl

theorem asClass_ofList {α : Type} {os : List Object} {o : Object} (h : Object.ofList os = some o) (as : Except Fault α) :
    asClass o as = as := by
  obtain ⟨hlen, rfl⟩ := Object.ofList_eq_some h
  rfl

theorem asVector_packInts {ns : List Int} {o : Object} (h : packInts ns = some o) (hns : ∀ n ∈ ns, Config.IsInt n) :
    o.asVector Object.asInt = .ok ns := by
  obtain ⟨os, hos, ho⟩ := Option.bind_eq_some_iff.1 h
  rw [Object.asVector_ofList ho]
  exact Object.mapM_asInt hos hns

/-- **The header**: a token that has 32 bits is read back, and for any other the request is given up. -/
theorem asRpcRequest_header {function : List Char} {token : Int} (h0 : 0 ≤ token) {t o : Object}
    (ht : Object.ofInt token = some t) (ho : Object.ofList [.str function, t] = some o) :
    asRpcRequest o = if token < 2 ^ 32 then .ok ⟨function, UInt32.ofNat token.toNat⟩ else .error .typeError := by
  unfold asRpcRequest
  rw [asClass_ofList ho, element_ofList ho rfl, element_ofList ho rfl, Object.asUint32_ofInt ht h0]
  split <;> rfl

section
variable {c : Codec} (hc : c.Correct)
include hc

theorem receiveHeader_packHeader {function : List Char} {token : Int} (h0 : 0 ≤ token) {header : List UInt8}
    (h : packHeader c function token = some header) (args : List UInt8) :
    receiveHeader c (header ++ args) = if token < 2 ^ 32 then
      .ok (⟨function, UInt32.ofNat token.toNat⟩, header.length) else .error (.thrown "std::bad_cast".toList) := by
  obtain ⟨t, ht, h⟩ := Option.bind_eq_some_iff.1 h
  obtain ⟨o, ho, hpack⟩ := Option.bind_eq_some_iff.1 h
  have hunpack : unpack c (header ++ args) 0 = .ok (o, header.length) := by
    unfold unpack
    rw [hc.unpack_first hpack args]
  unfold receiveHeader
  rw [hunpack]
  show (orEnd (asRpcRequest o) >>= fun rpcreq => pure (rpcreq, header.length)) = _
  rw [asRpcRequest_header h0 ht ho]
  split <;> rfl

theorem unpack_args {o : Object} {bytes : List UInt8} (h : c.pack o = some bytes) (header : List UInt8) :
    unpack c (header ++ bytes) header.length = .ok (o, header.length + bytes.length) := by
  unfold unpack
  rw [hc.unpack_last h header]

end

theorem requestArgs_eq_some {a : WriteChunks} {os : List Object} (h : a.requestArgs = some os) :
    ∃ beams minFpga maxFpga frequencyBinning priority, packInts a.beams = some beams ∧
      Object.ofInt a.minFpga = some minFpga ∧ Object.ofInt a.maxFpga = some maxFpga ∧
      Object.ofInt a.frequencyBinning = some frequencyBinning ∧ Object.ofInt a.priority = some priority ∧
      os = [beams, minFpga, maxFpga, .float a.dm, .float a.dmError, .float a.sweepWidth, frequencyBinning,
        .str a.filenamePattern, priority] ++ (a.needRfi.map Object.bool).toList := by
  unfold WriteChunks.requestArgs at h
  obtain ⟨beams, hbeams, h⟩ := Option.bind_eq_some_iff.1 h
  obtain ⟨minFpga, hmin, h⟩ := Option.bind_eq_some_iff.1 h
  obtain ⟨maxFpga, hmax, h⟩ := Option.bind_eq_some_iff.1 h
  obtain ⟨frequencyBinning, hfreq, h⟩ := Option.bind_eq_some_iff.1 h
  obtain ⟨priority, hprio, h⟩ := Option.bind_eq_some_iff.1 h
  refine ⟨beams, minFpga, maxFpga, frequencyBinning, priority, hbeams, hmin, hmax, hfreq, hprio, ?_⟩
  obtain rfl := Option.some.inj h
  cases a.needRfi with
  | none => rfl
  | some needRfi => rfl

theorem asWriteChunksRequest_of {a : WriteChunks} (hfits : a.Fits) {os : List Object} {o : Object}
    (hos : a.requestArgs = some os) (ho : Object.ofList os = some o) : asWriteChunksRequest o = .ok a.request := by
  obtain ⟨beams, minFpga, maxFpga, frequencyBinning, priority, hbeams, hmin, hmax, hfreq, hprio, rfl⟩ :=
    requestArgs_eq_some hos
  unfold asWriteChunksRequest
  rw [asClass_ofList ho, element_ofList ho rfl, element_ofList ho rfl, element_ofList ho rfl, element_ofList ho rfl,
    element_ofList ho rfl, element_ofList ho rfl, element_ofList ho rfl, element_ofList ho rfl, element_ofList ho rfl,
    asVector_packInts hbeams hfits.beams, Object.asUint64_ofInt hmin hfits.minFpga.1 hfits.minFpga.2,
    Object.asUint64_ofInt hmax hfits.maxFpga.1 hfits.maxFpga.2,
    Object.asInt_ofInt hfreq hfits.frequencyBinning.1 hfits.frequencyBinning.2,
    Object.asInt_ofInt hprio hfits.priority.1 hfits.priority.2]
  rfl

theorem writeChunksArgs_of {a : WriteChunks} (hfits : a.Fits) {os : List Object} {o : Object}
    (hos : a.requestArgs = some os) (ho : Object.ofList os = some o) : writeChunksArgs o = .ok a.received := by
  have hreq := asWriteChunksRequest_of hfits hos ho
  obtain ⟨beams, minFpga, maxFpga, frequencyBinning, priority, -, -, -, -, -, rfl⟩ := requestArgs_eq_some hos
  unfold writeChunksArgs WriteChunks.received
  rw [Object.size_ofList ho]
  cases hneed : a.needRfi with
  | none =>
    show (orEnd (asWriteChunksRequest o)).map _ = _
    rw [hreq]
    rfl
  | some needRfi =>
    rw [hneed] at ho
    show (orEnd (asWriteChunksRequestV2 o)).map _ = _
    unfold asWriteChunksRequestV2
    rw [hreq, element_ofList ho (e := .bool needRfi) rfl]
    rfl

theorem getPacketRateArgs_of {start period : Float} {o : Object}
    (ho : Object.ofList [.float start, .float period] = some o) : getPacketRateArgs o = .ok (start, period) := by
  unfold getPacketRateArgs
  rw [Object.size_ofList ho, arg_ofList ho rfl, arg_ofList ho rfl]
  rfl

theorem mapM_asString : ∀ ss : List (List Char), (ss.map Object.str).mapM Object.asString = .ok ss
  | []      => rfl
  | s :: ss => by
    rw [List.map_cons, List.mapM_cons, mapM_asString ss]
    rfl

theorem getPacketRateHistoryArgs_of {start stop period : Float} {l0 : List (List Char)} {l o : Object}
    (hl : Object.ofList (l0.map .str) = some l)
    (ho : Object.ofList [.float start, .float stop, .float period, l] = some o) :
    getPacketRateHistoryArgs o = .ok (start, stop, period, l0) := by
  unfold getPacketRateHistoryArgs
  rw [Object.size_ofList ho, arg_ofList ho rfl, arg_ofList ho rfl, arg_ofList ho rfl, arg_ofList ho rfl,
    Object.asVector_ofList hl, mapM_asString]
  rfl

/-! ## The beams of a stream request -/

theorem streamBeams_of {os : List Object} {o : Object} (ho : Object.ofList os = some o) (owned : List Int) :
    ∀ (ns : List Int) (i : Nat) (ids : List Int), List.Forall₂ (fun n o => Object.ofInt n = some o) ns (os.drop i) →
      (∀ n ∈ ns, Config.IsInt n) →
      Requests.streamBeams o owned i ns.length ids = .ok (ids ++ ns.filter (· ∈ owned))
  | [],      i, ids, _, _ => by
    rw [List.filter_nil, List.append_nil]
    rfl
  | n :: ns, i, ids, h, hns => by
    cases hdrop : os.drop i with
    | nil =>
      rw [hdrop] at h
      cases h
    | cons e es =>
      rw [hdrop] at h
      obtain ⟨hn, htail⟩ := List.forall₂_cons.1 h
      have he : os[i]? = some e := by
        have hhead := congrArg (·[0]?) hdrop
        simpa using hhead
      have hrest : os.drop (i + 1) = es := by
        rw [← List.tail_drop, hdrop, List.tail_cons]
      rw [List.length_cons, Requests.streamBeams, arg_ofList ho he, Object.asInt_ofInt hn (hns n (.head _)).1
        (hns n (.head _)).2]
      show Requests.streamBeams o owned (i + 1) ns.length _ = _
      rw [streamBeams_of ho owned ns (i + 1) _ (hrest.symm ▸ htail) (fun m hm => hns m (.tail _ hm))]
      by_cases hmem : n ∈ owned
      · simp [hmem]
      · simp [hmem]

theorem streamArgs_of {owned : List Int} {acqName acqDev acqMeta : List Char} {acqBeams : List Int} {newStream : Bool}
    {beams o : Object} (hfits : ∀ b ∈ acqBeams, Config.IsInt b) (hlen : acqBeams.length < 2 ^ 31)
    (hbeams : packInts acqBeams = some beams)
    (ho : Object.ofList [.str acqName, .str acqDev, .str acqMeta, beams, .bool newStream] = some o) :
    streamArgs owned o =
      .ok ⟨acqName, acqDev, acqMeta, newStream, acqBeams.length, acqBeams.filter (· ∈ owned)⟩ := by
  obtain ⟨os, hos, hlist⟩ := Option.bind_eq_some_iff.1 hbeams
  have hforall := forall₂_of_mapM_some hos
  have hsize : toInt (UInt32.ofNat os.length) = acqBeams.length := by
    unfold toInt
    rw [← hforall.length_eq, UInt32.toNat_ofNat_of_lt' (by show _ < 2 ^ 32; omega), if_pos hlen]
  have hloop : Requests.streamBeamIds owned beams = .ok ((acqBeams.length : Int), acqBeams.filter (· ∈ owned)) := by
    unfold Requests.streamBeamIds
    rw [Object.size_ofList hlist]
    show (Requests.streamBeams beams owned 0 (toInt (UInt32.ofNat os.length)).toNat [] >>= fun beamIds =>
      pure (toInt (UInt32.ofNat os.length), beamIds)) = _
    rw [hsize, Int.toNat_natCast, streamBeams_of hlist owned acqBeams 0 [] hforall hfits]
    rfl
  unfold streamArgs
  rw [Object.size_ofList ho, arg_ofList ho rfl, arg_ofList ho rfl, arg_ofList ho rfl, arg_ofList ho rfl,
    Object.elem_ofList ho (i := 3) rfl]
  show (Requests.streamBeamIds owned beams >>= _) = _
  rw [hloop]
  rfl

/-! ## Requests -/

section
variable {c : Codec} (hc : c.Correct)
include hc

theorem receiveArgs_of {call : Call} (hfits : call.Fits) (owned : List Int) {o : Object} (hargs : call.args = some o)
    {bytes : List UInt8} (hbytes : c.pack o = some bytes) (header : List UInt8) :
    receiveArgs c owned (header ++ bytes) header.length call.function = .ok (call.received owned) := by
  have hunpack := unpack_args hc hbytes header
  cases call with
  | stream acqName acqDev acqMeta acqBeams newStream =>
    show receiveArgs c owned (header ++ bytes) header.length "stream".toList = _
    unfold receiveArgs
    obtain ⟨beams, hbeams, ho⟩ := Option.bind_eq_some_iff.1 hargs
    rw [if_pos (by rfl), hunpack]
    show (streamArgs owned o >>= _) = _
    rw [streamArgs_of hfits.1 hfits.2 hbeams ho]
    rfl
  | getPacketRate start period =>
    show receiveArgs c owned (header ++ bytes) header.length "get_packet_rate".toList = _
    unfold receiveArgs
    rw [if_neg (by decide), if_pos (by rfl), hunpack]
    show (getPacketRateArgs o >>= _) = _
    rw [getPacketRateArgs_of hargs]
    rfl
  | getPacketRateHistory l0nodes start stop period =>
    show receiveArgs c owned (header ++ bytes) header.length "get_packet_rate_history".toList = _
    unfold receiveArgs
    obtain ⟨l, hl, ho⟩ := Option.bind_eq_some_iff.1 hargs
    rw [if_neg (by decide), if_neg (by decide), if_pos (by rfl), hunpack]
    show (getPacketRateHistoryArgs o >>= _) = _
    rw [getPacketRateHistoryArgs_of hl ho]
    rfl
  | writeChunks a =>
    show receiveArgs c owned (header ++ bytes) header.length "write_chunks".toList = _
    unfold receiveArgs
    obtain ⟨os, hos, ho⟩ := Option.bind_eq_some_iff.1 hargs
    rw [if_neg (by decide), if_neg (by decide), if_neg (by decide), if_pos (by rfl), hunpack]
    show (writeChunksArgs o >>= _) = _
    rw [writeChunksArgs_of hfits hos ho]
    rfl
  | getWritechunkStatus filename =>
    show receiveArgs c owned (header ++ bytes) header.length "get_writechunk_status".toList = _
    unfold receiveArgs
    obtain rfl := Option.some.inj hargs
    rw [if_neg (by decide), if_neg (by decide), if_neg (by decide), if_neg (by decide), if_pos (by rfl), hunpack]
    rfl

theorem receive_send {call : Call} (hfits : call.Fits) (owned : List Int) {token : Int} (h0 : 0 ≤ token)
    (htoken : token < 2 ^ 32) {msg : List UInt8} (hsend : call.send c token = some msg) :
    receive c owned msg = .ok (⟨call.function, UInt32.ofNat token.toNat⟩, call.received owned) := by
  obtain ⟨header, hheader, h⟩ := Option.bind_eq_some_iff.1 hsend
  obtain ⟨o, hargs, h⟩ := Option.bind_eq_some_iff.1 h
  obtain ⟨bytes, hbytes, h⟩ := Option.bind_eq_some_iff.1 h
  obtain rfl := Option.some.inj h
  unfold receive
  rw [receiveHeader_packHeader hc h0 hheader, if_pos htoken]
  show (receiveArgs c owned (header ++ bytes) header.length call.function >>= _) = _
  rw [receiveArgs_of hc hfits owned hargs hbytes]
  rfl

/-! ## Replies -/

def clientReply (r : WriteChunksReply) : WriteChunkReply :=
  ⟨.posInt r.beam, .posInt r.fpga0, .posInt r.fpgaN, .str r.filename.toList, .bool r.success, .str r.errorMessage.toList⟩

omit hc in
theorem writeChunkReply_of {r : WriteChunksReply} {o : Object} (h : replyObject r = some o) :
    writeChunkReply o = some (clientReply r) := by
  obtain ⟨hlen, rfl⟩ := Object.ofList_eq_some h
  rfl

theorem unpackReply_of {r : WriteChunksReply} {part : List UInt8} (h : packReply c r = some part) :
    unpackReply c part = some (clientReply r) := by
  obtain ⟨o, ho, hpack⟩ := Option.bind_eq_some_iff.1 h
  unfold unpackReply
  rw [hc.unpackb hpack, Option.bind_some, writeChunkReply_of ho]

omit hc in
theorem mapM_writeChunkReply {rs : List WriteChunksReply} {os : List Object} (h : rs.mapM replyObject = some os) :
    os.mapM writeChunkReply = some (rs.map clientReply) :=
  mapM_of_forall₂ ((forall₂_of_mapM_some h).imp (fun _ _ ho => writeChunkReply_of ho))

theorem unpackReplies_of {rs : List WriteChunksReply} {part : List UInt8} (h : packReplies c rs = some part) :
    unpackReplies c part = some (rs.map clientReply) := by
  obtain ⟨o, ho, hpack⟩ := Option.bind_eq_some_iff.1 h
  obtain ⟨os, hos, hlist⟩ := Option.bind_eq_some_iff.1 ho
  unfold unpackReplies
  rw [hc.unpackb hpack]
  obtain ⟨hlen, rfl⟩ := Object.ofList_eq_some hlist
  exact (congrArg (List.mapM writeChunkReply) (List.ofFn_get os)).trans (mapM_writeChunkReply hos)

end

/-- **The client and the server agree**: every request is read with the function's name, the token and the arguments that
were sent, where the three `float` members are those of the arguments rounded to single precision; and every reply to
`write_chunks`, the first or a later one, is read as it was packed. -/
theorem client_and_server_agree (c : Codec) (hc : c.Correct) :
    (∀ (call : Call) (owned : List Int) (token : Int) (msg : List UInt8), call.Fits → 0 ≤ token → token < 2 ^ 32 →
      call.send c token = some msg →
      receive c owned msg = .ok (⟨call.function, UInt32.ofNat token.toNat⟩, call.received owned)) ∧
    (∀ r part, packReply c r = some part → unpackReply c part = some (clientReply r)) ∧
    ∀ rs part, packReplies c rs = some part → unpackReplies c part = some (rs.map clientReply) :=
  ⟨fun _ owned _ _ hfits h0 htoken hsend => receive_send hc hfits owned h0 htoken hsend,
    fun _ _ h => unpackReply_of hc h, fun _ _ h => unpackReplies_of hc h⟩

def sweep : WriteChunks where
  beams            := [3, 70]
  minFpga          := 0
  maxFpga          := 2 ^ 40
  filenamePattern  := "chunk_(BEAM)_(CHUNK).msg".toList
  priority         := -1
  dm               := Float.ofBits 0x3fb999999999999a
  dmError          := 0
  sweepWidth       := 0
  frequencyBinning := 1
  needRfi          := some true

def sweepMessage : List UInt8 := ((Call.writeChunks sweep).send codec 300).get (by decide +kernel)

theorem sweep_fits : (Call.writeChunks sweep).Fits :=
  ⟨by decide, by decide, by decide, by decide, by decide⟩

theorem client_and_server_agree_sweep : receive codec [] sweepMessage =
    .ok (⟨"write_chunks".toList, 300⟩, .writeChunks (.v2 { sweep.request with needRfi := true })) :=
  (client_and_server_agree codec codec_correct).1 (.writeChunks sweep) [] 300 sweepMessage sweep_fits (by decide)
    (by decide) (Option.some_get _).symm

/-- **An argument that is not read as it was sent**: 0.1 is not a number of single precision. -/
theorem float_is_rounded : ∃ req, receive codec [] sweepMessage =
    .ok (⟨"write_chunks".toList, 300⟩, .writeChunks (.v2 req)) ∧ castDouble req.dm ≠ sweep.dm :=
  ⟨{ sweep.request with needRfi := true },
    receive_send codec_correct sweep_fits [] (by decide) (by decide)
      (Option.some_get _).symm, by decide +kernel⟩

end Wire
end FrbL1
