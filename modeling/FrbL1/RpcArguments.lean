import FrbL1.L1Server
import FrbL1.Msgpack
/-!
# RpcArguments — the `stream`, `get_packet_rate` and `get_packet_rate_history` requests

The argument object of a request is whatever the client has sent.  The three handlers read its array member without a
look at its type: they meet their contract exactly for arguments that are arrays where they read them as arrays
(`handlers_read_arrays`).  What `ch_frb_io` has counted is a parameter.
-/
namespace FrbL1
namespace Requests

open Conc (Prog)
open Config (InputStream Streaming)
open FileUtils
open Msgpack
open Posix (Filename Tree)

/-! ## Strings -/

/-- The loop of `replaceAll`, which searches from the start again; `none` if `fuel` replacements are not enough. -/
def replaceLoop (pat new : List Char) : Nat → List Char → Option (List Char)
  | fuel, s =>
    match find pat s, fuel with
    | none,             _        => some s
    | some _,           0        => none
    | some (pre, post), fuel + 1 => replaceLoop pat new fuel (pre ++ new ++ post)

def replaceAll (input pat new : List Char) : Option (List Char) := replaceLoop pat new input.length input

/-- A text that lacks a character of what it replaces: each replacement takes one such character away. -/
theorem replaceLoop_isSome {pat new : List Char} {c : Char} (hc : c ∈ pat) (hnew : c ∉ new) : ∀ (fuel : Nat) (s : List Char),
    s.count c ≤ fuel → (replaceLoop pat new fuel s).isSome
  | fuel, s, h => by
    unfold replaceLoop
    cases hf : find pat s with
    | none => rfl
    | some x =>
      obtain ⟨pre, post⟩ := x
      have hpos : 0 < pat.count c := List.count_pos_iff.2 hc
      have hs := congrArg (List.count c) (find_eq hf)
      rw [List.count_append, List.count_append] at hs
      cases fuel with
      | zero => omega
      | succ fuel =>
        refine replaceLoop_isSome hc hnew fuel _ ?_
        rw [List.count_append, List.count_append, List.count_eq_zero_of_not_mem hnew]
        omega

theorem replaceAll_isSome {pat new : List Char} {c : Char} (hc : c ∈ pat) (hnew : c ∉ new) (input : List Char) :
    (replaceAll input pat new).isSome := replaceLoop_isSome hc hnew _ input List.count_le_length

/-- `(STREAM)` replaced by the stream's number. -/
def replaceStream (acqdir : Filename) (streamId : Int) : Filename :=
  have hparen : '(' ∈ "(STREAM)".toList := by decide
  (replaceAll acqdir "(STREAM)".toList (setw 1 streamId)).get
    (replaceAll_isSome hparen (not_mem_setw rfl (by decide) 1 streamId) acqdir)

/-! ## The stream -/

structure Node where
  stream : InputStream
  tree   : Tree
  deriving Inhabited

structure PacketCounts where
  startTime : Float
  period    : Float
  counts    : List (List Char × Int)     -- under the names that `to_string()` gives

inductive Reply
  | stream (result : Bool × List Char)
  | packetRate (start period : Float) (packets : List (List Char × Int))
  | packetRateHistory (times : List Float) (rates : List (List Float))

inductive Outcome
  | sent (reply : Reply)
  | returned (r : Int)
  | thrown (what : List Char)
  | undefined     -- a member of another variant of an object has been read, or an element that is not there

/-- The request has been turned down, by its return value or by an exception that `run` catches. -/
def Outcome.Rejected : Outcome → Prop
  | .returned r => r = -1
  | .thrown _   => True
  | _           => False

/-! ## The arguments -/

def orEnd {α : Type} : Except Fault α → Except Outcome α
  | .ok a             => .ok a
  | .error .typeError => .error (.thrown "std::bad_cast".toList)
  | .error .undefined => .error .undefined

/-- `via.array.ptr[i].as<T>()` -/
def arg {α : Type} (o : Object) (i : Nat) (as : Object → Except Fault α) : Except Outcome α := do
  let e ← orEnd (o.elem i)
  orEnd (as e)

def getPacketRateArgs (o : Object) : Except Outcome (Float × Float) := do
  let size ← orEnd o.size
  if size ≠ 2 then
    throw (.returned (-1))
  let start ← arg o 0 Object.asDouble
  let period ← arg o 1 Object.asDouble
  return (start, period)

def getPacketRateHistoryArgs (o : Object) : Except Outcome (Float × Float × Float × List (List Char)) := do
  let size ← orEnd o.size
  if size ≠ 4 then
    throw (.returned (-1))
  let start ← arg o 0 Object.asDouble
  let stop ← arg o 1 Object.asDouble
  let period ← arg o 2 Object.asDouble
  let l0 ← arg o 3 (Object.asVector Object.asString)
  return (start, stop, period, l0)

structure StreamArgs where
  acqName : List Char
  acqDev  : List Char
  acqMeta : List Char
  acqNew  : Bool
  nbeams  : Int
  beamIds : List Int

/-- `int n = size` -/
def toInt (size : UInt32) : Int := if size.toNat < 2 ^ 31 then size.toNat else size.toNat - 2 ^ 32

/-- The loop over the beams of a request, from the `i`-th on. -/
def streamBeams (beams : Object) (owned : List Int) : Nat → Nat → List Int → Except Outcome (List Int)
  | _, 0,     ids => .ok ids
  | i, k + 1, ids => do
    let beam ← arg beams i Object.asInt
    streamBeams beams owned (i + 1) k (if beam ∈ owned then ids ++ [beam] else ids)

def streamBeamIds (owned : List Int) (beams : Object) : Except Outcome (Int × List Int) := do
  let size ← orEnd beams.size
  let beamIds ← streamBeams beams owned 0 (toInt size).toNat []
  return (toInt size, beamIds)

def streamArgs (owned : List Int) (o : Object) : Except Outcome StreamArgs := do
  let size ← orEnd o.size
  if size ≠ 5 then
    throw (.returned (-1))
  let acqName ← arg o 0 Object.asString
  let acqDev ← arg o 1 Object.asString
  let acqMeta ← arg o 2 Object.asString
  let acqNew ← arg o 4 Object.asBool
  let beams ← orEnd (o.elem 3)
  let (nbeams, beamIds) ← streamBeamIds owned beams
  return ⟨acqName, acqDev, acqMeta, acqNew, nbeams, beamIds⟩

/-! ## The requests -/

/-- The acquisition's directories, and its metadata file; what becomes of that file is only logged. -/
def startAcq (node : Node) (a : StreamArgs) : Sys Filename := do
  let acqDev := if a.acqDev.length = 0 then "ssd".toList else a.acqDev
  let pattern ← acqnameToFilenamePattern acqDev a.acqName [node.stream.iniParams.streamId]
    node.stream.iniParams.beamIds a.acqNew
  if a.acqNew ∧ a.acqMeta.length ≠ 0 then
    let acqdir ← acqPatternToDir pattern
    let fn := replaceStream acqdir node.stream.iniParams.streamId ++ "/metadata.json".toList
    let _ ← fwrite fn (a.acqMeta.map (fun c => c.toNat.toUInt8))
  pure pattern

def Node.streamToFiles (node : Node) (streaming : Streaming) : Node :=
  { node with stream := { node.stream with streaming } }

def stream (node : Node) (a : StreamArgs) : Reply × Node :=
  let beamIds := if a.nbeams = 0 then node.stream.iniParams.beamIds else a.beamIds
  if a.acqName.length = 0 then
    (.stream (true, []), node.streamToFiles ⟨[], [], 0, false⟩)
  else match Prog.solo Posix.perform (startAcq node a) node.tree with
    | (.ok pattern, tree) =>
      let needRfi := decide (node.stream.iniParams.nrfifreq > 0)
      (.stream (true, pattern), { node with tree }.streamToFiles ⟨pattern, beamIds, 0, needRfi⟩)
    | (.error what, tree) => (.stream (false, what), { node with tree })

def getPacketRate (rate : Option PacketCounts) : Reply :=
  match rate with
  | some rate => .packetRate rate.startTime rate.period rate.counts
  | none      => .packetRate 0 0 []

def getPacketRateHistory (packets : List PacketCounts) (l0 : List (List Char)) : Reply :=
  let val (it : PacketCounts) (l0name : List Char) : Int :=
    if l0name = "sum".toList then (it.counts.map (·.2)).sum else (it.counts.lookup l0name).getD 0
  .packetRateHistory (packets.map (·.startTime))
    (l0.map (fun l0name => packets.map (fun it => Float.ofInt (val it l0name) / it.period)))

/-- The requests whose arguments are read from the array member. -/
inductive Funcname
  | stream
  | getPacketRate
  | getPacketRateHistory

/-- A request ends with its arguments, or with the reply to them. -/
def finish {α : Type} (node : Node) (args : Except Outcome α) (reply : α → Reply × Node) : Outcome × Node :=
  match args with
  | .ok a    => (.sent (reply a).1, (reply a).2)
  | .error e => (e, node)

section
variable (packetRates : Float → Float → Option PacketCounts)
variable (packetRateHistory : Float → Float → Float → List PacketCounts)

/-- `_handle_request`, for these requests. -/
def handleRequest (node : Node) : Funcname → Object → Outcome × Node
  | .stream, o               => finish node (streamArgs node.stream.iniParams.beamIds o) (stream node)
  | .getPacketRate, o        =>
    finish node (getPacketRateArgs o) (fun (start, period) => (getPacketRate (packetRates start period), node))
  | .getPacketRateHistory, o =>
    finish node (getPacketRateHistoryArgs o) (fun (start, stop, period, l0) =>
      (getPacketRateHistory (packetRateHistory start stop period) l0, node))

/-! ## The contract -/

def Funcname.args : Funcname → List Shape
  | .stream               => [.string, .string, .string, .vector .int, .bool]
  | .getPacketRate        => [.double, .double]
  | .getPacketRateHistory => [.double, .double, .double, .vector .string]

/-- The array member is read of arrays only, within bounds; and an argument of another shape is turned down. -/
def MeetsContract (f : Funcname) (o : Object) : Prop :=
  ∀ node : Node, (handleRequest packetRates packetRateHistory node f o).1 ≠ .undefined ∧
    (¬ o.HasElems f.args → (handleRequest packetRates packetRateHistory node f o).1.Rejected ∧
      (handleRequest packetRates packetRateHistory node f o).2.stream.streaming = node.stream.streaming)

end

/-! ## Taken or turned down -/

/-- Arguments of a certain shape lead on, to `Y`, and all others are turned down. -/
def Takes {α : Type} (x : Except Outcome α) (shape : Prop) (Y : Except Outcome α → Prop) : Prop :=
  (shape ∧ Y x) ∨ (¬ shape ∧ ∃ e, x = .error e ∧ e.Rejected)

def IsOk {α : Type} (x : Except Outcome α) : Prop := ∃ a, x = .ok a

theorem takes_of {α : Type} {x : Except Outcome α} {Y : Except Outcome α → Prop} (h : Y x) : Takes x True Y :=
  .inl ⟨trivial, h⟩

theorem takes_iff {α : Type} {x : Except Outcome α} {P Q : Prop} {Y : Except Outcome α → Prop} (h : Takes x P Y)
    (hPQ : P ↔ Q) : Takes x Q Y := by
  rwa [← propext hPQ]

section
variable {α β : Type} {as : Object → Except Fault α} {s : Shape} {o e : Object} {i : Nat}

theorem takes_arg (hc : Converts as s) (he : o.elem i = .ok e) {k : α → Except Outcome β} {shape : Prop}
    {Y : Except Outcome β → Prop} (hk : ∀ a, Takes (k a) shape Y) : Takes (arg o i as >>= k) (e.Has s ∧ shape) Y := by
  have harg : arg o i as = orEnd (as e) := by
    unfold arg
    rw [he]
    rfl
  rw [harg]
  by_cases h : e.Has s
  · obtain ⟨a, ha⟩ := hc.ok e h
    rw [ha]
    exact takes_iff (hk a) (by simp [h])
  · rw [hc.error e h]
    exact .inr ⟨fun h' => h h'.1, _, rfl, trivial⟩

end

theorem takes_size {α : Type} {n : UInt32} {p : Fin n.toNat → Object} {ss : List Shape} {x : Except Outcome α}
    {Y : Except Outcome α → Prop} (hn : n.toNat ≠ ss.length) (hx : x = .error (.returned (-1))) :
    Takes x ((Object.array n p).HasElems ss) Y :=
  .inr ⟨fun h => hn h.size_eq, _, hx, rfl⟩

theorem takes_getPacketRateArgs {o : Object} (h : o.IsArray) :
    Takes (getPacketRateArgs o) (o.HasElems (Funcname.args .getPacketRate)) IsOk := by
  cases o with
  | array n p =>
    by_cases hn : n = 2
    · subst hn
      refine takes_iff (takes_arg converts_double rfl (fun _ => takes_arg converts_double rfl (fun _ =>
        takes_of ⟨_, rfl⟩))) ?_
      show _ ↔ List.Forall₂ _ [p ⟨0, _⟩, p ⟨1, _⟩] _
      simp [Funcname.args]
    · refine takes_size (fun h => hn (UInt32.toNat_inj.1 h)) ?_
      show (if n ≠ 2 then _ else _) = _
      rw [if_pos hn]
      rfl
  | _ => exact h.elim

theorem takes_getPacketRateHistoryArgs {o : Object} (h : o.IsArray) :
    Takes (getPacketRateHistoryArgs o) (o.HasElems (Funcname.args .getPacketRateHistory)) IsOk := by
  cases o with
  | array n p =>
    by_cases hn : n = 4
    · subst hn
      refine takes_iff (takes_arg converts_double rfl (fun _ => takes_arg converts_double rfl (fun _ =>
        takes_arg converts_double rfl (fun _ => takes_arg converts_string.vector rfl (fun _ =>
          takes_of ⟨_, rfl⟩))))) ?_
      show _ ↔ List.Forall₂ _ [p ⟨0, _⟩, p ⟨1, _⟩, p ⟨2, _⟩, p ⟨3, _⟩] _
      simp [Funcname.args]
    · refine takes_size (fun h => hn (UInt32.toNat_inj.1 h)) ?_
      show (if n ≠ 4 then _ else _) = _
      rw [if_pos hn]
      rfl
  | _ => exact h.elim

/-! ## The beams of a stream request -/

theorem takes_streamBeams {n : UInt32} {p : Fin n.toNat → Object} (owned : List Int) :
    ∀ (k i : Nat) (ids : List Int), i + k = n.toNat →
      Takes (streamBeams (.array n p) owned i k ids) (∀ j, i ≤ j.1 → (p j).Has .int) IsOk
  | 0, i, ids, h => takes_iff (takes_of ⟨ids, rfl⟩) ⟨fun _ j hj => absurd j.2 (by omega), fun _ => trivial⟩
  | k + 1, i, ids, h => by
    have hi : i < n.toNat := by omega
    have hbeam : (Object.array n p).elem i = .ok (p ⟨i, hi⟩) := dif_pos hi
    refine takes_iff (takes_arg converts_int hbeam (fun beam => takes_streamBeams owned k (i + 1) _ (by omega))) ?_
    constructor
    · rintro ⟨hfirst, hrest⟩ j hj
      rcases Nat.eq_or_lt_of_le hj with hj | hj
      · obtain rfl : j = ⟨i, hi⟩ := Fin.ext hj.symm
        exact hfirst
      · exact hrest j hj
    · intro hall
      exact ⟨hall ⟨i, hi⟩ (Nat.le_refl i), fun j hj => hall j (by omega)⟩

theorem takes_streamBeamIds {n : UInt32} {p : Fin n.toNat → Object} (owned : List Int) (hn : n.toNat < 2 ^ 31) :
    Takes (streamBeamIds owned (.array n p)) ((Object.array n p).Has (.vector .int)) IsOk := by
  have hk : (toInt n).toNat = n.toNat := by rw [toInt, if_pos hn, Int.toNat_natCast]
  have h := takes_streamBeams (p := p) owned n.toNat 0 [] (Nat.zero_add _)
  show Takes (streamBeams (.array n p) owned 0 (toInt n).toNat [] >>= _) _ _
  rw [hk]
  rcases h with ⟨hall, ids, hids⟩ | ⟨hall, e, he, hr⟩
  · rw [hids]
    exact .inl ⟨fun j => hall j (Nat.zero_le _), _, rfl⟩
  · rw [he]
    exact .inr ⟨fun h => hall (fun j _ => h j), e, rfl, hr⟩

/-- As an `int` the number of beams is negative: none is looked at. -/
theorem streamBeamIds_negative {n : UInt32} {p : Fin n.toNat → Object} (owned : List Int) (hn : ¬ n.toNat < 2 ^ 31) :
    streamBeamIds owned (.array n p) = .ok (toInt n, []) := by
  have hlt := n.toNat_lt
  have hk : (toInt n).toNat = 0 := by
    rw [toInt, if_neg hn]
    omega
  show (streamBeams (.array n p) owned 0 (toInt n).toNat [] >>= _) = _
  rw [hk]
  rfl

theorem streamBeamIds_undefined {beams : Object} (owned : List Int) (h : ¬ beams.IsArray) :
    streamBeamIds owned beams = .error .undefined := by
  unfold streamBeamIds
  rw [Object.size_of_not_isArray h]
  rfl

/-- The names and the flag of a stream request come first; then the beams are read, whatever is in their place. -/
theorem takes_streamArgs (owned : List Int) (p : Fin (5 : UInt32).toNat → Object) :
    Takes (streamArgs owned (.array 5 p))
      ((p ⟨0, by decide⟩).Has .string ∧ (p ⟨1, by decide⟩).Has .string ∧ (p ⟨2, by decide⟩).Has .string ∧
        (p ⟨4, by decide⟩).Has .bool ∧ True)
      (fun x => ∃ acqName acqDev acqMeta acqNew, x = (streamBeamIds owned (p ⟨3, by decide⟩)).bind
        (fun y => .ok ⟨acqName, acqDev, acqMeta, acqNew, y.1, y.2⟩)) :=
  takes_arg converts_string rfl (fun acqName => takes_arg converts_string rfl (fun acqDev =>
    takes_arg converts_string rfl (fun acqMeta => takes_arg converts_bool rfl (fun acqNew =>
      takes_of ⟨acqName, acqDev, acqMeta, acqNew, rfl⟩))))

/-! ## The three handlers -/

theorem finish_undefined {α : Type} {node : Node} {reply : α → Reply × Node} {x : Except Outcome α}
    (h : x = .error .undefined) : (finish node x reply).1 = .undefined := by
  rw [h]
  rfl

theorem finish_ok {α : Type} {node : Node} {reply : α → Reply × Node} {x : Except Outcome α} (h : IsOk x) :
    (finish node x reply).1 ≠ .undefined ∧ ¬ (finish node x reply).1.Rejected := by
  obtain ⟨a, rfl⟩ := h
  show Outcome.sent _ ≠ .undefined ∧ ¬ (Outcome.sent _).Rejected
  exact ⟨fun he => (nomatch he), fun hr => hr⟩

theorem finish_takes {α : Type} {node : Node} {reply : α → Reply × Node} {x : Except Outcome α} {shape : Prop}
    (h : Takes x shape IsOk) : (finish node x reply).1 ≠ .undefined ∧
      (¬ shape → (finish node x reply).1.Rejected ∧ (finish node x reply).2.stream.streaming = node.stream.streaming) := by
  rcases h with ⟨hs, hok⟩ | ⟨hs, e, rfl, hr⟩
  · exact ⟨(finish_ok hok).1, fun hn => absurd hs hn⟩
  · refine ⟨fun he => ?_, fun _ => ⟨hr, rfl⟩⟩
    obtain rfl : e = .undefined := he
    exact hr

/-- A stream request whose names and flag are as declared: what is in the place of the beams is an array, and its size
is an `int`, or its elements are numbers. -/
def BeamsReadable (o : Object) : Prop :=
  o.size = .ok 5 → (∀ i < 3, ∃ e, o.elem i = .ok e ∧ e.Has .string) → (∃ e, o.elem 4 = .ok e ∧ e.Has .bool) →
    ∃ n q, o.elem 3 = .ok (.array n q) ∧ (n.toNat < 2 ^ 31 ∨ ∀ j, (q j).Has .int)

def Funcname.ReadsArrays : Funcname → Object → Prop
  | .stream, o               => o.IsArray ∧ BeamsReadable o
  | .getPacketRate, o        => o.IsArray
  | .getPacketRateHistory, o => o.IsArray

theorem stream_hasElems {p : Fin (5 : UInt32).toNat → Object} :
    (Object.array 5 p).HasElems (Funcname.args .stream) ↔ ((p ⟨0, by decide⟩).Has .string ∧
      (p ⟨1, by decide⟩).Has .string ∧ (p ⟨2, by decide⟩).Has .string ∧ (p ⟨4, by decide⟩).Has .bool ∧ True) ∧
      (p ⟨3, by decide⟩).Has (.vector .int) := by
  show List.Forall₂ _ [p ⟨0, _⟩, p ⟨1, _⟩, p ⟨2, _⟩, p ⟨3, _⟩, p ⟨4, _⟩] _ ↔ _
  simp only [Funcname.args, List.forall₂_cons, List.forall₂_nil_right_iff, and_true]
  tauto

theorem stream_beamsReadable {p : Fin (5 : UInt32).toNat → Object} :
    BeamsReadable (.array 5 p) ↔ ((p ⟨0, by decide⟩).Has .string ∧ (p ⟨1, by decide⟩).Has .string ∧
      (p ⟨2, by decide⟩).Has .string ∧ (p ⟨4, by decide⟩).Has .bool ∧ True →
      ∃ n q, p ⟨3, by decide⟩ = .array n q ∧ (n.toNat < 2 ^ 31 ∨ ∀ j, (q j).Has .int)) := by
  constructor
  · rintro h ⟨h₀, h₁, h₂, h₄, -⟩
    have hstrings : ∀ i < 3, ∃ e, (Object.array 5 p).elem i = .ok e ∧ e.Has .string := fun i hi =>
      match i, hi with
      | 0, _ => ⟨_, rfl, h₀⟩
      | 1, _ => ⟨_, rfl, h₁⟩
      | 2, _ => ⟨_, rfl, h₂⟩
    obtain ⟨n, q, h₃, hn⟩ := h rfl hstrings ⟨_, rfl, h₄⟩
    exact ⟨n, q, Except.ok.inj h₃, hn⟩
  · rintro h - hstrings ⟨e₄, he₄, h₄⟩
    obtain ⟨e₀, he₀, h₀⟩ := hstrings 0 (by decide)
    obtain ⟨e₁, he₁, h₁⟩ := hstrings 1 (by decide)
    obtain ⟨e₂, he₂, h₂⟩ := hstrings 2 (by decide)
    cases he₀; cases he₁; cases he₂; cases he₄
    obtain ⟨n, q, h₃, hn⟩ := h ⟨h₀, h₁, h₂, h₄, trivial⟩
    exact ⟨n, q, congrArg Except.ok h₃, hn⟩

/-- Where the beams can be read, the arguments are taken if they are as declared, and turned down if not. -/
theorem takes_stream_readable (owned : List Int) {p : Fin (5 : UInt32).toNat → Object}
    (h : BeamsReadable (.array 5 p)) :
    Takes (streamArgs owned (.array 5 p)) ((Object.array 5 p).HasElems (Funcname.args .stream)) IsOk := by
  rcases takes_streamArgs owned p with ⟨hpre, acqName, acqDev, acqMeta, acqNew, hx⟩ | ⟨hpre, herr⟩
  · obtain ⟨n, q, h₃, hn⟩ := stream_beamsReadable.1 h hpre
    have hbeams : Takes (streamBeamIds owned (p ⟨3, by decide⟩)) ((p ⟨3, by decide⟩).Has (.vector .int)) IsOk := by
      rw [h₃]
      by_cases hlt : n.toNat < 2 ^ 31
      · exact takes_streamBeamIds owned hlt
      · exact .inl ⟨hn.resolve_left hlt, _, streamBeamIds_negative owned hlt⟩
    rw [hx]
    rcases hbeams with ⟨hall, ids, hids⟩ | ⟨hall, e, he, hr⟩
    · rw [hids]
      exact .inl ⟨stream_hasElems.2 ⟨hpre, hall⟩, _, rfl⟩
    · rw [he]
      exact .inr ⟨fun hs => hall (stream_hasElems.1 hs).2, e, rfl, hr⟩
  · exact .inr ⟨fun hs => hpre (stream_hasElems.1 hs).1, herr⟩

/-- Where they cannot, they are read all the same, or passed over. -/
theorem stream_unreadable (owned : List Int) {p : Fin (5 : UInt32).toNat → Object} (h : ¬ BeamsReadable (.array 5 p)) :
    streamArgs owned (.array 5 p) = .error .undefined ∨
      (IsOk (streamArgs owned (.array 5 p)) ∧ ¬ (Object.array 5 p).HasElems (Funcname.args .stream)) := by
  rw [stream_beamsReadable, Classical.not_imp] at h
  obtain ⟨hpre, hno⟩ := h
  rcases takes_streamArgs owned p with ⟨-, acqName, acqDev, acqMeta, acqNew, hx⟩ | ⟨hpre', -⟩
  · by_cases harr : (p ⟨3, by decide⟩).IsArray
    · cases h₃ : p ⟨3, by decide⟩ with
      | array n q =>
        rw [h₃] at hx
        have hlt : ¬ n.toNat < 2 ^ 31 := fun hlt => hno ⟨n, q, h₃, .inl hlt⟩
        rw [streamBeamIds_negative owned hlt] at hx
        refine .inr ⟨⟨_, hx⟩, fun hs => hno ⟨n, q, h₃, .inr ?_⟩⟩
        have hall := (stream_hasElems.1 hs).2
        rw [h₃] at hall
        exact hall
      | _ => rw [h₃] at harr; exact harr.elim
    · rw [streamBeamIds_undefined owned harr] at hx
      exact .inl hx
  · exact absurd hpre hpre'

section
variable (packetRates : Float → Float → Option PacketCounts)
variable (packetRateHistory : Float → Float → Float → List PacketCounts)

theorem isArray_of_size {α : Type} {o : Object} {k : UInt32 → Except Outcome α} {node : Node} {reply : α → Reply × Node}
    (h : (finish node (orEnd o.size >>= k) reply).1 ≠ .undefined) : o.IsArray := by
  by_contra harr
  rw [Object.size_of_not_isArray harr] at h
  exact h rfl

/-- **The handlers keep their contract exactly where what they read as an array is one.** -/
theorem handlers_read_arrays (f : Funcname) (o : Object) :
    MeetsContract packetRates packetRateHistory f o ↔ f.ReadsArrays o := by
  cases f with
  | getPacketRate =>
    exact ⟨fun h => isArray_of_size (h default).1, fun h node => finish_takes (takes_getPacketRateArgs h)⟩
  | getPacketRateHistory =>
    exact ⟨fun h => isArray_of_size (h default).1, fun h node => finish_takes (takes_getPacketRateHistoryArgs h)⟩
  | stream =>
    constructor
    · intro h
      have harr := isArray_of_size (h default).1
      refine ⟨harr, ?_⟩
      cases o with
      | array n p =>
        by_cases hn : n = 5
        · subst hn
          by_contra hread
          rcases stream_unreadable [] hread with hun | ⟨hok, hs⟩
          · exact (h default).1 (finish_undefined hun)
          · exact (finish_ok hok).2 ((h default).2 hs).1
        · exact fun hsize => absurd (Except.ok.inj hsize) hn
      | _ => exact harr.elim
    · rintro ⟨harr, hread⟩ node
      cases o with
      | array n p =>
        by_cases hn : n = 5
        · subst hn
          exact finish_takes (takes_stream_readable _ hread)
        · refine finish_takes (takes_size (fun h => hn (UInt32.toNat_inj.1 h)) ?_)
          show (if n ≠ 5 then _ else _) = _
          rw [if_pos hn]
          rfl
      | _ => exact harr.elim

end

/-- **An argument that is not an array**: the text `12345`, whose size is that of the array a stream request wants, and
a nil. -/
theorem handlers_read_anything :
    ¬ MeetsContract (fun _ _ => none) (fun _ _ _ => []) .stream (.str "12345".toList) ∧
      ¬ MeetsContract (fun _ _ => none) (fun _ _ _ => []) .getPacketRate .nil ∧
      ¬ MeetsContract (fun _ _ => none) (fun _ _ _ => []) .getPacketRateHistory .nil :=
  ⟨fun h => (h default).1 rfl, fun h => (h default).1 rfl, fun h => (h default).1 rfl⟩

end Requests
end FrbL1
