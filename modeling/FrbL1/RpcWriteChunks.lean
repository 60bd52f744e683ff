import FrbL1.RpcWire
/-!
# RpcWriteChunks — the handler of `write_chunks`

The handler as a program over what it calls.  A request with 9 or with 10 arguments is decoded, or turned down by an
exception; with any other number the handler goes on with a request that was never decoded
(`writeChunks_decodes_iff`).  What its members hold then is the result of reading them.
-/
namespace FrbL1
namespace Wire

open Conc Conc.Prog
open Config (bind_eq_ok ok_bind)
open Msgpack
open Requests (Outcome orEnd)
open Rpc (AssembledChunk ClientId L1WriteRequest WriteChunksReply listReplyEntry)

/-! ## The handler -/

/-- The members of `WriteChunks_Request` that the handler reads. -/
inductive Member
  | beams
  | minFpga
  | maxFpga
  | filenamePattern
  | priority

/-- The containers are empty in a request that was never decoded; the numbers are whatever is there. -/
@[reducible]
def Member.Value : Member → Type
  | .beams | .filenamePattern => Unit
  | .minFpga | .maxFpga       => UInt64
  | .priority                 => Int

inductive Op
  | undecoded (m : Member)      -- a member of a request that was never decoded is read
  | getRingbufSnapshots (beams : List Int) (minFpga maxFpga : UInt64)
  | enqueueWriteRequest (w : L1WriteRequest)

@[reducible]
def Op.Result : Op → Type
  | .undecoded m               => m.Value
  | .getRingbufSnapshots _ _ _ => Except (List Char) (List (List (AssembledChunk × UInt64)))
  | .enqueueWriteRequest _     => Bool

abbrev Handler (α : Type) := Prog Op Op.Result Outcome α

def WriteChunksArgs.request : WriteChunksArgs → WriteChunksRequest
  | .v1 req => req
  | .v2 req => req.toWriteChunksRequest

/-- `obj.via.array.size`, where `punned` is what that is for an object of another type. -/
def arraySize (punned : Object → UInt32) : Object → UInt32
  | .array n _ => n
  | o          => punned o

/-- The request and `need_rfi`; `none` is a request that was never decoded. -/
def decode (punned : Object → UInt32) (o : Object) : Handler (Option WriteChunksRequest × Bool) :=
  if arraySize punned o = 9 then
    match orEnd (asWriteChunksRequest o) with
    | .ok req  => .ret (some req, false)
    | .error e => .throw e
  else if arraySize punned o = 10 then
    match orEnd (asWriteChunksRequestV2 o) with
    | .ok req2 => .ret (some req2.toWriteChunksRequest, req2.needRfi)
    | .error e => .throw e
  else .ret (none, false)

def readMember {α : Type} (m : Member) (undecoded : m.Value → α) (member : WriteChunksRequest → α) :
    Option WriteChunksRequest → Handler α
  | some req => .ret (member req)
  | none     => .op (.undecoded m) (fun x => .ret (undecoded x))

/-- `_get_chunks` -/
def getChunks (beams : List Int) (minFpga maxFpga : UInt64) : Handler (List AssembledChunk) :=
  .op (.getRingbufSnapshots beams minFpga maxFpga) (fun
    | .ok ch      => .ret (ch.flatMap (fun it => it.map (·.1)))
    | .error what => .throw (.thrown what))

section
variable (formatFilename : AssembledChunk → String → String) (client : ClientId) (token : UInt32)

def writeRequest (needRfi : Bool) (pattern : List Char) (priority : Int) (chunk : AssembledChunk) : L1WriteRequest where
  chunk       := chunk
  filename    := formatFilename chunk (String.ofList pattern)
  priority    := priority
  client      := some client
  token       := token
  needRfiMask := needRfi

/-- The body of the loop over the chunks. -/
def enqueueChunk (req : Option WriteChunksRequest) (needRfi : Bool) (chunk : AssembledChunk) :
    Handler WriteChunksReply :=
  (readMember .filenamePattern (fun () => []) (·.filenamePattern) req).bind (fun pattern =>
  (readMember .priority (fun n => n) (·.priority) req).bind (fun priority =>
  let w := writeRequest formatFilename client token needRfi pattern priority chunk
  .op (.enqueueWriteRequest w) (fun success => .ret (listReplyEntry w success))))

def writeDecoded (req : Option WriteChunksRequest) (needRfi : Bool) : Handler (List WriteChunksReply) :=
  (readMember .beams (fun () => []) (·.beams) req).bind (fun beams =>
  (readMember .minFpga (fun n => n) (·.minFpga) req).bind (fun minFpga =>
  (readMember .maxFpga (fun n => n) (·.maxFpga) req).bind (fun maxFpga =>
  (getChunks beams minFpga maxFpga).bind (fun chunks =>
  collect (enqueueChunk formatFilename client token req needRfi) chunks))))

/-- The `write_chunks` branch of `_handle_request`: the list that it replies with. -/
def writeChunks (punned : Object → UInt32) (o : Object) : Handler (List WriteChunksReply) :=
  (decode punned o).bind (fun x => writeDecoded formatFilename client token x.1 x.2)

end

/-! ## What a request asks for -/

structure HasFields (o : Object) (req : WriteChunksRequest) : Prop where
  beams            : element o 0 (Object.asVector Object.asInt) = .ok req.beams
  minFpga          : element o 1 Object.asUint64 = .ok req.minFpga
  maxFpga          : element o 2 Object.asUint64 = .ok req.maxFpga
  dm               : element o 3 Object.asFloat = .ok req.dm
  dmError          : element o 4 Object.asFloat = .ok req.dmError
  sweepWidth       : element o 5 Object.asFloat = .ok req.sweepWidth
  frequencyBinning : element o 6 Object.asInt = .ok req.frequencyBinning
  filenamePattern  : element o 7 Object.asString = .ok req.filenamePattern
  priority         : element o 8 Object.asInt = .ok req.priority

def IsV1 (o : Object) (req : WriteChunksRequest) : Prop := o.size = .ok 9 ∧ HasFields o req

def IsV2 (o : Object) (req : WriteChunksRequestV2) : Prop :=
  o.size = .ok 10 ∧ HasFields o req.toWriteChunksRequest ∧ element o 9 Object.asBool = .ok req.needRfi

section
variable (formatFilename : AssembledChunk → String → String) (client : ClientId) (token : UInt32)

/-- With these snapshots, or this exception; whether a write can be queued is left open. -/
def Returning (snapshots : Except (List Char) (List (List (AssembledChunk × UInt64)))) : (o : Op) → o.Result → Prop
  | .getRingbufSnapshots _ _ _, x => x = snapshots
  | _,                          _ => True

/-- The handler acts on the request: it asks for the chunks of the request, and writes them as the request says. -/
def ActsOn (req : WriteChunksRequest) (needRfi : Bool) (p : Handler (List WriteChunksReply)) : Prop :=
  ∀ snapshots r l, Runs (Returning snapshots) p r l → match snapshots with
    | .ok ch      =>
      let ws := ch.flatten.map (fun it =>
        writeRequest formatFilename client token needRfi req.filenamePattern req.priority it.1)
      l = .getRingbufSnapshots req.beams req.minFpga req.maxFpga :: ws.map .enqueueWriteRequest ∧
        ∃ rs, r = .ok rs ∧ List.Forall₂ (fun w rep => ∃ success, rep = listReplyEntry w success) ws rs
    | .error what => l = [.getRingbufSnapshots req.beams req.minFpga req.maxFpga] ∧ r = .error (.thrown what)

/-- Nothing is called and nothing is read. -/
def TurnedDown (p : Handler (List WriteChunksReply)) : Prop := ∃ e : Outcome, e.Rejected ∧ p = .throw e

structure DecodesOrTurnsDown (punned : Object → UInt32) (o : Object) : Prop where
  v1    : ∀ req, IsV1 o req → ActsOn formatFilename client token req false (writeChunks formatFilename client token punned o)
  v2    : ∀ req, IsV2 o req → ActsOn formatFilename client token req.toWriteChunksRequest req.needRfi
            (writeChunks formatFilename client token punned o)
  other : (∀ req, ¬ IsV1 o req) → (∀ req, ¬ IsV2 o req) →
            TurnedDown (writeChunks formatFilename client token punned o)

end

/-! ## Decoding -/

/-- What is not there is not read. -/
def Defined {α : Type} (x : Except Fault α) : Prop := x ≠ .error .undefined

section
variable {α β : Type}

theorem defined_bind {x : Except Fault α} {f : α → Except Fault β} (hx : Defined x) (hf : ∀ a, Defined (f a)) :
    Defined (x >>= f) := by
  cases x with
  | ok a => exact hf a
  | error e => exact fun h => hx (congrArg Except.error (Except.error.inj h))

theorem defined_mapM {as : Object → Except Fault α} (has : ∀ o, Defined (as o)) : ∀ os : List Object,
    Defined (os.mapM as)
  | []      => fun h => nomatch h
  | o :: os => by
    rw [List.mapM_cons]
    apply defined_bind (has o)
    intro a
    apply defined_bind (defined_mapM has os)
    intro as h
    cases h

theorem defined_element {as : Object → Except Fault α} (has : ∀ o, Defined (as o)) {n : UInt32}
    (p : Fin n.toNat → Object) {i : Nat} (hi : i < n.toNat) : Defined (element (.array n p) i as) := by
  have helem : (Object.array n p).elem i = .ok (p ⟨i, hi⟩) := dif_pos hi
  unfold element
  rw [helem]
  exact has _

theorem ok_of_orEnd {x : Except Fault α} {a : α} (h : orEnd x = .ok a) : x = .ok a := by
  cases x with
  | ok a' => exact congrArg _ (Except.ok.inj h)
  | error f => cases f <;> cases h

theorem rejected_of_defined {x : Except Fault α} (hx : Defined x) {e : Outcome} (he : orEnd x = .error e) :
    e.Rejected := by
  cases x with
  | ok a => cases he
  | error f =>
    cases f with
    | typeError =>
      obtain rfl := Except.error.inj he
      exact trivial
    | undefined => exact absurd rfl hx

end

theorem defined_asInt (o : Object) : Defined o.asInt := by
  intro h
  unfold Object.asInt at h
  split at h
  · split at h <;> cases h
  · split at h <;> cases h
  · cases h

theorem defined_asUint64 (o : Object) : Defined o.asUint64 := by
  intro h
  unfold Object.asUint64 at h
  split at h <;> cases h

theorem defined_asFloat (o : Object) : Defined o.asFloat := by
  intro h
  unfold Object.asFloat at h
  split at h <;> cases h

theorem defined_asString (o : Object) : Defined o.asString := by
  intro h
  unfold Object.asString at h
  split at h <;> cases h

theorem defined_asBool (o : Object) : Defined o.asBool := by
  intro h
  unfold Object.asBool at h
  split at h <;> cases h

theorem defined_asVector {o : Object} : Defined (o.asVector Object.asInt) := by
  cases o with
  | array n p => exact defined_mapM defined_asInt _
  | _ => exact fun h => nomatch h

section
variable {n : UInt32} {p : Fin n.toNat → Object}

theorem defined_asWriteChunksRequest (hn : 9 ≤ n.toNat) : Defined (asWriteChunksRequest (.array n p)) := by
  have h : ∀ i < 9, i < n.toNat := fun i hi => by omega
  unfold asWriteChunksRequest asClass
  apply defined_bind (defined_element (fun _ => defined_asVector) p (h 0 (by decide)))
  intro beams
  apply defined_bind (defined_element defined_asUint64 p (h 1 (by decide)))
  intro minFpga
  apply defined_bind (defined_element defined_asUint64 p (h 2 (by decide)))
  intro maxFpga
  apply defined_bind (defined_element defined_asFloat p (h 3 (by decide)))
  intro dm
  apply defined_bind (defined_element defined_asFloat p (h 4 (by decide)))
  intro dmError
  apply defined_bind (defined_element defined_asFloat p (h 5 (by decide)))
  intro sweepWidth
  apply defined_bind (defined_element defined_asInt p (h 6 (by decide)))
  intro frequencyBinning
  apply defined_bind (defined_element defined_asString p (h 7 (by decide)))
  intro filenamePattern
  apply defined_bind (defined_element defined_asInt p (h 8 (by decide)))
  intro priority h
  cases h

theorem defined_asWriteChunksRequestV2 (hn : 10 ≤ n.toNat) : Defined (asWriteChunksRequestV2 (.array n p)) := by
  unfold asWriteChunksRequestV2
  apply defined_bind (defined_asWriteChunksRequest (by omega))
  intro req
  apply defined_bind (defined_element defined_asBool p (by omega))
  intro needRfi h
  cases h

theorem asWriteChunksRequest_iff {req : WriteChunksRequest} :
    asWriteChunksRequest (.array n p) = .ok req ↔ HasFields (.array n p) req := by
  constructor
  · intro h
    unfold asWriteChunksRequest asClass at h
    obtain ⟨beams, hbeams, h⟩ := bind_eq_ok h
    obtain ⟨minFpga, hmin, h⟩ := bind_eq_ok h
    obtain ⟨maxFpga, hmax, h⟩ := bind_eq_ok h
    obtain ⟨dm, hdm, h⟩ := bind_eq_ok h
    obtain ⟨dmError, hdmError, h⟩ := bind_eq_ok h
    obtain ⟨sweepWidth, hsweep, h⟩ := bind_eq_ok h
    obtain ⟨frequencyBinning, hfreq, h⟩ := bind_eq_ok h
    obtain ⟨filenamePattern, hpattern, h⟩ := bind_eq_ok h
    obtain ⟨priority, hprio, h⟩ := bind_eq_ok h
    obtain rfl := Except.ok.inj h
    exact ⟨hbeams, hmin, hmax, hdm, hdmError, hsweep, hfreq, hpattern, hprio⟩
  · rintro ⟨hbeams, hmin, hmax, hdm, hdmError, hsweep, hfreq, hpattern, hprio⟩
    unfold asWriteChunksRequest asClass
    rw [hbeams, hmin, hmax, hdm, hdmError, hsweep, hfreq, hpattern, hprio]
    rfl

theorem asWriteChunksRequestV2_iff {req : WriteChunksRequestV2} :
    asWriteChunksRequestV2 (.array n p) = .ok req ↔
      HasFields (.array n p) req.toWriteChunksRequest ∧ element (.array n p) 9 Object.asBool = .ok req.needRfi := by
  rw [← asWriteChunksRequest_iff]
  constructor
  · intro h
    unfold asWriteChunksRequestV2 at h
    obtain ⟨req', hreq, h⟩ := bind_eq_ok h
    obtain ⟨needRfi, hneed, h⟩ := bind_eq_ok h
    obtain rfl := Except.ok.inj h
    exact ⟨hreq, hneed⟩
  · rintro ⟨hreq, hneed⟩
    unfold asWriteChunksRequestV2
    rw [hreq, ok_bind, hneed]
    rfl

end

theorem arraySize_array (punned : Object → UInt32) (n : UInt32) (p : Fin n.toNat → Object) :
    arraySize punned (.array n p) = n := rfl

theorem isArray_of_size {o : Object} {k : UInt32} (h : o.size = .ok k) : ∃ p, o = .array k p := by
  cases o with
  | array n p =>
    obtain rfl := Except.ok.inj h
    exact ⟨p, rfl⟩
  | _ => cases h

/-! ## Acting on a request -/

section
variable {formatFilename : AssembledChunk → String → String} {client : ClientId} {token : UInt32}

theorem enqueueChunk_runs {snapshots : Except (List Char) (List (List (AssembledChunk × UInt64)))}
    {req : WriteChunksRequest} {needRfi : Bool} {chunk : AssembledChunk} {rep : WriteChunksReply} {l : List Op}
    (h : Runs (Returning snapshots) (enqueueChunk formatFilename client token (some req) needRfi chunk) (.ok rep) l) :
    let w := writeRequest formatFilename client token needRfi req.filenamePattern req.priority chunk
    (∃ success, rep = listReplyEntry w success) ∧ l = [.enqueueWriteRequest w] := by
  obtain ⟨success, l', -, rfl, hret, rfl⟩ := h
  exact ⟨⟨success, Except.ok.inj hret⟩, rfl⟩

theorem actsOn_writeDecoded (req : WriteChunksRequest) (needRfi : Bool) :
    ActsOn formatFilename client token req needRfi (writeDecoded formatFilename client token (some req) needRfi) := by
  rintro snapshots r l ⟨x, l', hx, rfl, hrun⟩
  obtain rfl : x = snapshots := hx
  match x with
  | .error what =>
    obtain ⟨rfl, rfl⟩ := hrun
    exact ⟨rfl, rfl⟩
  | .ok ch =>
  have hall : Runs (Returning (.ok ch)) (collect (enqueueChunk formatFilename client token (some req) needRfi)
      (ch.flatMap (fun it => it.map (·.1)))) r l' := hrun
  have hno : NoThrow (Returning (.ok ch)) (collect (enqueueChunk formatFilename client token (some req) needRfi)
      (ch.flatMap (fun it => it.map (·.1)))) := noThrow_collect (fun chunk _ success _ => trivial)
  obtain ⟨rs, rfl⟩ := ok_of_runs hno hall
  have hbody : ∀ chunk rep k,
      Runs (Returning (.ok ch)) (enqueueChunk formatFilename client token (some req) needRfi chunk) (.ok rep) k →
      (∃ success, rep = listReplyEntry
        (writeRequest formatFilename client token needRfi req.filenamePattern req.priority chunk) success) ∧
      k = [.enqueueWriteRequest
        (writeRequest formatFilename client token needRfi req.filenamePattern req.priority chunk)] :=
    fun _ _ _ h => enqueueChunk_runs h
  obtain ⟨hrs, rfl⟩ := runs_collect_forall₂ hbody hall
  have hchunks : ch.flatMap (fun it => it.map (·.1)) = ch.flatten.map (·.1) := by
    rw [List.map_flatten, List.flatMap_def]
  rw [hchunks] at hrs ⊢
  refine ⟨congrArg (List.cons _) ?_, rs, rfl, ?_⟩
  · rw [← List.map_eq_flatMap, List.map_map, List.map_map]
    rfl
  · rw [List.forall₂_map_left_iff] at hrs ⊢
    exact hrs

variable {punned : Object → UInt32} {o : Object}

theorem writeChunks_of_v1 {req : WriteChunksRequest} (h : IsV1 o req) :
    writeChunks formatFilename client token punned o =
      writeDecoded formatFilename client token (some req) false := by
  obtain ⟨hsize, hfields⟩ := h
  obtain ⟨p, rfl⟩ := isArray_of_size hsize
  have hdec : decode punned (.array 9 p) = .ret (some req, false) := by
    unfold decode
    rw [arraySize_array, if_pos rfl, asWriteChunksRequest_iff.2 hfields]
    rfl
  unfold writeChunks
  rw [hdec]
  rfl

theorem writeChunks_of_v2 {req : WriteChunksRequestV2} (h : IsV2 o req) :
    writeChunks formatFilename client token punned o =
      writeDecoded formatFilename client token (some req.toWriteChunksRequest) req.needRfi := by
  obtain ⟨hsize, hfields, hneed⟩ := h
  obtain ⟨p, rfl⟩ := isArray_of_size hsize
  have hdec : decode punned (.array 10 p) = .ret (some req.toWriteChunksRequest, req.needRfi) := by
    unfold decode
    rw [arraySize_array, if_neg (by decide), if_pos rfl, asWriteChunksRequestV2_iff.2 ⟨hfields, hneed⟩]
    rfl
  unfold writeChunks
  rw [hdec]
  rfl

theorem turnedDown_of_decode {e : Outcome} (he : e.Rejected) (h : decode punned o = .throw e) :
    TurnedDown (writeChunks formatFilename client token punned o) := by
  unfold writeChunks
  rw [h]
  exact ⟨e, he, rfl⟩

theorem turnedDown_of_size (hsize : arraySize punned o = 9 ∨ arraySize punned o = 10)
    (h1 : ∀ req, ¬ IsV1 o req) (h2 : ∀ req, ¬ IsV2 o req) :
    TurnedDown (writeChunks formatFilename client token punned o) := by
  have hthrow9 : arraySize punned o = 9 → ∀ e, orEnd (asWriteChunksRequest o) = .error e →
      decode punned o = .throw e := by
    intro hn e he
    unfold decode
    rw [if_pos hn, he]
  have hthrow10 : arraySize punned o = 10 → ∀ e, orEnd (asWriteChunksRequestV2 o) = .error e →
      decode punned o = .throw e := by
    intro hn e he
    unfold decode
    rw [if_neg (by rw [hn]; decide), if_pos hn, he]
  cases o with
  | array n p =>
    rcases hsize with hn | hn
    · obtain rfl : n = 9 := hn
      cases hreq : orEnd (asWriteChunksRequest (.array 9 p)) with
      | ok req =>
        exact absurd ⟨rfl, asWriteChunksRequest_iff.1 (ok_of_orEnd hreq)⟩ (h1 req)
      | error e =>
        exact turnedDown_of_decode (rejected_of_defined (defined_asWriteChunksRequest (by decide)) hreq)
          (hthrow9 rfl e hreq)
    · obtain rfl : n = 10 := hn
      cases hreq : orEnd (asWriteChunksRequestV2 (.array 10 p)) with
      | ok req =>
        exact absurd ⟨rfl, asWriteChunksRequestV2_iff.1 (ok_of_orEnd hreq)⟩ (h2 req)
      | error e =>
        exact turnedDown_of_decode (rejected_of_defined (defined_asWriteChunksRequestV2 (by decide)) hreq)
          (hthrow10 rfl e hreq)
  | _ =>
    rcases hsize with hn | hn
    · exact turnedDown_of_decode (by exact trivial) (hthrow9 hn _ rfl)
    · exact turnedDown_of_decode (by exact trivial) (hthrow10 hn _ rfl)

/-- What a request with another number of arguments is taken for: nothing is converted, and the members are read. -/
theorem writeChunks_of_ne (h9 : arraySize punned o ≠ 9) (h10 : arraySize punned o ≠ 10) :
    writeChunks formatFilename client token punned o = writeDecoded formatFilename client token none false := by
  have hdec : decode punned o = .ret (none, false) := by
    unfold decode
    rw [if_neg h9, if_neg h10]
  unfold writeChunks
  rw [hdec]
  rfl

theorem not_turnedDown_writeDecoded (needRfi : Bool) :
    ¬ TurnedDown (writeDecoded formatFilename client token none needRfi) := by
  rintro ⟨e, -, h⟩
  cases h

theorem not_decodesOrTurnsDown_of_ne (h9 : arraySize punned o ≠ 9) (h10 : arraySize punned o ≠ 10) :
    ¬ DecodesOrTurnsDown formatFilename client token punned o := by
  intro h
  have h1 : ∀ req, ¬ IsV1 o req := by
    rintro req ⟨hn, -⟩
    obtain ⟨p, rfl⟩ := isArray_of_size hn
    exact h9 rfl
  have h2 : ∀ req, ¬ IsV2 o req := by
    rintro req ⟨hn, -⟩
    obtain ⟨p, rfl⟩ := isArray_of_size hn
    exact h10 rfl
  have hdown := h.other h1 h2
  rw [writeChunks_of_ne h9 h10] at hdown
  exact not_turnedDown_writeDecoded false hdown

/-- **The handler acts on the two versions, and turns everything else down, if and only if there are 9 or 10
arguments.** -/
theorem writeChunks_decodes_iff (formatFilename : AssembledChunk → String → String) (client : ClientId)
    (token : UInt32) (punned : Object → UInt32) (o : Object) :
    DecodesOrTurnsDown formatFilename client token punned o ↔ arraySize punned o = 9 ∨ arraySize punned o = 10 := by
  constructor
  · intro h
    by_contra hsize
    obtain ⟨h9, h10⟩ := not_or.1 hsize
    exact not_decodesOrTurnsDown_of_ne h9 h10 h
  · intro hsize
    refine ⟨fun req hreq => ?_, fun req hreq => ?_, turnedDown_of_size hsize⟩
    · rw [writeChunks_of_v1 hreq]
      exact actsOn_writeDecoded req false
    · rw [writeChunks_of_v2 hreq]
      exact actsOn_writeDecoded req.toWriteChunksRequest req.needRfi

/-- `[[0, 1, 2], 0, 5, 'chunk-beam(BEAM)-fpga(FPGA0)+(FPGAN)-py.msgpack']` -/
def fourArguments : Object :=
  .array 4 (fun i => [.array 3 (fun j => [.posInt 0, .posInt 1, .posInt 2].get j), .posInt 0, .posInt 5,
    .str "chunk-beam(BEAM)-fpga(FPGA0)+(FPGAN)-py.msgpack".toList].get i)

theorem not_decodesOrTurnsDown_fourArguments :
    ¬ DecodesOrTurnsDown (fun _ pattern => pattern) [0] 7 (fun _ => 0) fourArguments :=
  not_decodesOrTurnsDown_of_ne (by decide) (by decide)

/-! ## The requests of the client -/

theorem decode_of_writeChunksArgs {x : WriteChunksArgs} (h : writeChunksArgs o = .ok x) :
    decode punned o = .ret (some x.request, x.needRfiMask) := by
  unfold writeChunksArgs at h
  obtain ⟨size, hsize, h⟩ := bind_eq_ok h
  obtain ⟨p, rfl⟩ := isArray_of_size (ok_of_orEnd hsize)
  unfold decode
  rw [arraySize_array]
  by_cases h9 : size = 9
  · rw [if_pos h9] at h ⊢
    cases hreq : orEnd (asWriteChunksRequest (.array size p)) with
    | ok req =>
      rw [hreq] at h
      obtain rfl := Except.ok.inj h
      rfl
    | error e =>
      rw [hreq] at h
      cases h
  · rw [if_neg h9] at h ⊢
    by_cases h10 : size = 10
    · rw [if_pos h10] at h ⊢
      cases hreq : orEnd (asWriteChunksRequestV2 (.array size p)) with
      | ok req2 =>
        rw [hreq] at h
        obtain rfl := Except.ok.inj h
        rfl
      | error e =>
        rw [hreq] at h
        cases h
    · rw [if_neg h10] at h
      cases h

/-- **What the python client sends is acted on as it was meant.** -/
theorem actsOn_client {a : WriteChunks} (hfits : a.Fits) {os : List Object} (hos : a.requestArgs = some os)
    (ho : Object.ofList os = some o) :
    ActsOn formatFilename client token a.received.request a.received.needRfiMask
      (writeChunks formatFilename client token punned o) := by
  unfold writeChunks
  rw [decode_of_writeChunksArgs (writeChunksArgs_of hfits hos ho)]
  exact actsOn_writeDecoded a.received.request a.received.needRfiMask

end

end Wire
end FrbL1
