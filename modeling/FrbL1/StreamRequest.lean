import FrbL1.AcqFiles
/-!
# StreamRequest — what a `stream` request does to the configuration

The handler with everything around it open: the system calls return anything, and `stream_to_files` of `ch_frb_io` sets
the configuration or throws.  Two things keep it from its contract (`stream_keeps_iff`): the number of beams in the
request is an `int`, so that from 2^31 on none of them is looked at; and where the stream has no beams there is no
pattern, and `acq_pattern_to_dir` throws.
-/
namespace FrbL1
namespace Requests

open Conc Conc.Prog
open Config (Streaming)
open FileUtils
open Msgpack
open Posix (Filename Call)

/-! ## The handler -/

/-- How a request ends, and the configuration that it sets, if it sets one. -/
structure Effect where
  outcome : Outcome
  set     : Option Streaming

section
variable {σ : Type} (sem : (c : Call) → σ → c.Result × σ) (throws : Streaming → Option (List Char)) (node : Node)

/-- `stream_to_files`, and then the reply; what it throws is caught or not. -/
def streamToFiles (streaming : Streaming) (uncaught : Bool) : Effect :=
  match throws streaming with
  | none      => ⟨.sent (.stream (true, streaming.pattern)), some streaming⟩
  | some what => ⟨if uncaught then .thrown what else .sent (.stream (false, what)), none⟩

def streamEffect (s : σ) (a : StreamArgs) : Effect :=
  let beamIds := if a.nbeams = 0 then node.stream.iniParams.beamIds else a.beamIds
  if a.acqName.length = 0 then streamToFiles throws ⟨[], [], 0, false⟩ true
  else match (solo sem (startAcq node a) s).1 with
    | .ok pattern => streamToFiles throws ⟨pattern, beamIds, 0, decide (node.stream.iniParams.nrfifreq > 0)⟩ false
    | .error what => ⟨.sent (.stream (false, what)), none⟩

/-- The `stream` branch of `_handle_request`. -/
def handleStream (s : σ) (o : Object) : Effect :=
  match streamArgs node.stream.iniParams.beamIds o with
  | .ok a    => streamEffect sem throws node s a
  | .error e => ⟨e, none⟩

end

theorem stream_eq (node : Node) (a : StreamArgs) :
    (streamEffect Posix.perform (fun _ => none) node node.tree a).outcome = .sent (stream node a).1 ∧
      (stream node a).2.stream.streaming =
        (streamEffect Posix.perform (fun _ => none) node node.tree a).set.getD node.stream.streaming := by
  unfold streamEffect stream
  by_cases hname : a.acqName.length = 0
  · rw [if_pos hname, if_pos hname]
    exact ⟨rfl, rfl⟩
  · rw [if_neg hname, if_neg hname]
    rcases hrun : solo Posix.perform (startAcq node a) node.tree with ⟨pattern | what, tree⟩
    · exact ⟨rfl, rfl⟩
    · exact ⟨rfl, rfl⟩

def metadata (node : Node) (a : StreamArgs) (pattern : Filename) : Sys Filename := do
  if a.acqNew ∧ a.acqMeta.length ≠ 0 then
    let acqdir ← acqPatternToDir pattern
    let fn := replaceStream acqdir node.stream.iniParams.streamId ++ "/metadata.json".toList
    let _ ← fwrite fn (a.acqMeta.map (fun c => c.toNat.toUInt8))
  pure pattern

/-! ## The contract -/

/-- An argument object with five elements of the declared types. -/
structure IsStreamRequest (o : Object) (acqName acqDev acqMeta : List Char) (acqNew : Bool) {n : UInt32}
    (beams : Fin n.toNat → Int) : Prop where
  size    : o.size = .ok 5
  acqName : arg o 0 Object.asString = .ok acqName
  acqDev  : arg o 1 Object.asString = .ok acqDev
  acqMeta : arg o 2 Object.asString = .ok acqMeta
  acqNew  : arg o 4 Object.asBool = .ok acqNew
  beams   : ∃ q, o.elem 3 = .ok (.array n q) ∧ ∀ j, (q j).asInt = .ok (beams j)

def defaultDev (acqDev : List Char) : List Char := if acqDev.length = 0 then "ssd".toList else acqDev

section
variable (node : Node) (acqName acqDev acqMeta : List Char) (acqNew : Bool)

def checkDirs : Sys Filename :=
  acqnameToFilenamePattern (defaultDev acqDev) acqName [node.stream.iniParams.streamId] node.stream.iniParams.beamIds
    acqNew

def requested (beams : List Int) (pattern : Filename) : Streaming where
  pattern  := pattern
  beamIds  := if beams = [] then node.stream.iniParams.beamIds else beams.filter (· ∈ node.stream.iniParams.beamIds)
  priority := 0
  needRfi  := decide (node.stream.iniParams.nrfifreq > 0)

/-- One outcome of all that is called. -/
structure KeepsContract (beams : List Int) {σ : Type} (sem : (c : Call) → σ → c.Result × σ)
    (throws : Streaming → Option (List Char)) (s : σ) (e : Effect) : Prop where
  anew    : e.set ≠ none ↔ ∃ pattern, e.outcome = .sent (.stream (true, pattern))
  off     : acqName = [] → throws ⟨[], [], 0, false⟩ = none →
              e = ⟨.sent (.stream (true, [])), some ⟨[], [], 0, false⟩⟩
  fails   : acqName ≠ [] → ∀ what, (solo sem (checkDirs node acqName acqDev acqNew) s).1 = .error what →
              e = ⟨.sent (.stream (false, what)), none⟩
  becomes : acqName ≠ [] → ∀ pattern, (solo sem (checkDirs node acqName acqDev acqNew) s).1 = .ok pattern →
              (throws (requested node beams pattern) = none →
                e = ⟨.sent (.stream (true, pattern)), some (requested node beams pattern)⟩) ∧
              ∀ what, throws (requested node beams pattern) = some what → e = ⟨.sent (.stream (false, what)), none⟩

/-- Streaming is turned off; or the stream has beams where metadata is to be written, and the beams of the request are
as many as an `int` counts, or make no difference. -/
def WithinReach (beams : List Int) : Prop :=
  acqName = [] ∨
    ((node.stream.iniParams.beamIds = [] → ¬ (acqNew = true ∧ acqMeta ≠ [])) ∧
      (beams.length < 2 ^ 31 ∨ (∀ b ∈ beams, b ∉ node.stream.iniParams.beamIds) ∨
        (strcaseeq (defaultDev acqDev) "ssd".toList = false ∧ strcaseeq (defaultDev acqDev) "nfs".toList = false)))

end

/-! ## The arguments -/

theorem streamBeams_eq {n : UInt32} {q : Fin n.toNat → Object} {beams : Fin n.toNat → Int}
    (hq : ∀ j, (q j).asInt = .ok (beams j)) (owned : List Int) : ∀ (k i : Nat) (ids : List Int), i + k = n.toNat →
      streamBeams (.array n q) owned i k ids = .ok (ids ++ ((List.ofFn beams).drop i).filter (· ∈ owned))
  | 0,     i, ids, h => by
    rw [List.drop_eq_nil_of_le (by rw [List.length_ofFn]; omega)]
    simp [streamBeams]
  | k + 1, i, ids, h => by
    have hi : i < n.toNat := by omega
    have hbeam : arg (.array n q) i Object.asInt = .ok (beams ⟨i, hi⟩) := by
      have helem : (Object.array n q).elem i = .ok (q ⟨i, hi⟩) := dif_pos hi
      unfold arg
      rw [helem]
      show orEnd (q ⟨i, hi⟩).asInt = _
      rw [hq]
      rfl
    have hdrop : (List.ofFn beams).drop i = beams ⟨i, hi⟩ :: (List.ofFn beams).drop (i + 1) := by
      rw [List.drop_eq_getElem_cons (by rw [List.length_ofFn]; exact hi), List.getElem_ofFn]
    rw [streamBeams, hbeam]
    show streamBeams _ owned (i + 1) k _ = _
    rw [streamBeams_eq hq owned k (i + 1) _ (by omega), hdrop]
    by_cases hmem : beams ⟨i, hi⟩ ∈ owned
    · simp [hmem]
    · simp [hmem]

def argsOf (owned : List Int) (acqName acqDev acqMeta : List Char) (acqNew : Bool) {n : UInt32}
    (beams : Fin n.toNat → Int) : StreamArgs where
  acqName := acqName
  acqDev  := acqDev
  acqMeta := acqMeta
  acqNew  := acqNew
  nbeams  := toInt n
  beamIds := if n.toNat < 2 ^ 31 then (List.ofFn beams).filter (· ∈ owned) else []

section
variable {o : Object} {acqName acqDev acqMeta : List Char} {acqNew : Bool} {n : UInt32} {beams : Fin n.toNat → Int}

theorem streamArgs_eq (h : IsStreamRequest o acqName acqDev acqMeta acqNew beams) (owned : List Int) :
    streamArgs owned o = .ok (argsOf owned acqName acqDev acqMeta acqNew beams) := by
  obtain ⟨q, helem, hq⟩ := h.beams
  have hids : streamBeamIds owned (.array n q) =
      .ok (toInt n, if n.toNat < 2 ^ 31 then (List.ofFn beams).filter (· ∈ owned) else []) := by
    by_cases hlt : n.toNat < 2 ^ 31
    · have hk : (toInt n).toNat = n.toNat := by rw [toInt, if_pos hlt, Int.toNat_natCast]
      show (streamBeams (.array n q) owned 0 (toInt n).toNat [] >>= _) = _
      rw [hk, streamBeams_eq hq owned n.toNat 0 [] (Nat.zero_add _), if_pos hlt]
      rfl
    · rw [streamBeamIds_negative owned hlt, if_neg hlt]
  unfold streamArgs
  rw [h.size, h.acqName, h.acqDev, h.acqMeta, h.acqNew, helem]
  show (streamBeamIds owned (.array n q) >>= _) = _
  rw [hids]
  rfl

end

/-! ## The directories -/

section
variable {σ : Type} {sem : (c : Call) → σ → c.Result × σ} {node : Node}

theorem checkDirs_nil (hbeams : node.stream.iniParams.beamIds = []) (acqName acqDev : List Char) (acqNew : Bool) :
    checkDirs node acqName acqDev acqNew = .ret [] := by
  unfold checkDirs
  rw [hbeams, acqnameToFilenamePattern_nil]

theorem solo_metadata (a : StreamArgs) (devname acqname : Filename) (s : σ) :
    (solo sem (metadata node a (filenamePattern devname acqname)) s).1 = .ok (filenamePattern devname acqname) := by
  unfold metadata
  split
  · rw [acqPatternToDir_filenamePattern]
    rfl
  · rfl

/-- **Where the metadata is written**: last of all, in the acquisition's directory with the stream's number filled in. -/
theorem startAcq_writes {A : (c : Call) → c.Result → Prop} {a : StreamArgs} {pattern : Filename} {calls : List Call}
    (hrun : Runs A (startAcq node a) (.ok pattern) calls) (hne : pattern ≠ [])
    (hmeta : a.acqNew = true ∧ a.acqMeta.length ≠ 0) :
    ∃ checks, calls = checks ++ [Call.write
      (fileBase (defaultDev a.acqDev) node.stream.iniParams.streamId ++
        '/' :: fillStream node.stream.iniParams.streamId a.acqName ++ "/metadata.json".toList)
      (a.acqMeta.map (fun c => c.toNat.toUInt8))] := by
  have hstart : startAcq node a = (checkDirs node a.acqName a.acqDev a.acqNew).bind (metadata node a) := rfl
  rw [hstart] at hrun
  obtain ⟨dirs, checks, last, hchecks, hlast, rfl⟩ := runs_bind_ok hrun
  unfold metadata at hlast
  rw [if_pos hmeta] at hlast
  obtain ⟨dir, cut, write, hcut, hwrite, rfl⟩ := runs_bind_ok hlast
  obtain ⟨result, written, rest, ⟨_, _, -, rfl, -, rfl⟩, ⟨hpattern, rfl⟩, rfl⟩ := runs_bind_ok hwrite
  obtain rfl : pattern = dirs := Except.ok.inj hpattern
  obtain rfl := pattern_of_runs hchecks hne
  rw [acqPatternToDir_filenamePattern] at hcut
  obtain ⟨hdir, rfl⟩ := hcut
  obtain rfl := Except.ok.inj hdir
  rw [replaceStream_eq, fillStream_patternDir]
  exact ⟨checks, rfl⟩

/-- Without beams there is no pattern, and no directory for the metadata. -/
theorem startAcq_nil (hbeams : node.stream.iniParams.beamIds = []) (a : StreamArgs) :
    startAcq node a = metadata node a [] := by
  show Prog.bind (checkDirs node a.acqName a.acqDev a.acqNew) (metadata node a) = _
  rw [checkDirs_nil hbeams]
  rfl

theorem metadata_nil_throws (node : Node) {a : StreamArgs} (h : a.acqNew = true ∧ a.acqMeta ≠ []) :
    ∃ what, metadata node a [] = .throw what := by
  unfold metadata
  rw [if_pos ⟨h.1, List.length_eq_zero_iff.not.2 h.2⟩]
  exact ⟨_, rfl⟩

theorem metadata_nil_ok (node : Node) {a : StreamArgs} (h : ¬ (a.acqNew = true ∧ a.acqMeta ≠ [])) :
    metadata node a [] = .ret [] := by
  unfold metadata
  rw [if_neg (fun h' => h ⟨h'.1, List.length_eq_zero_iff.not.1 h'.2⟩)]
  rfl

/-- **The metadata makes no difference**, where there are beams. -/
theorem startAcq_eq (hbeams : node.stream.iniParams.beamIds ≠ []) {a : StreamArgs} (hname : a.acqName ≠ []) (s : σ) :
    (solo sem (startAcq node a) s).1 = (solo sem (checkDirs node a.acqName a.acqDev a.acqNew) s).1 := by
  obtain ⟨checks, hchecks⟩ := acqnameToFilenamePattern_eq (defaultDev a.acqDev) [node.stream.iniParams.streamId]
    a.acqNew hname hbeams
  have hdirs : checkDirs node a.acqName a.acqDev a.acqNew = _ := hchecks
  have hstart : startAcq node a =
      checks.bind (fun _ => metadata node a (filenamePattern (defaultDev a.acqDev) a.acqName)) := by
    show Prog.bind (acqnameToFilenamePattern (defaultDev a.acqDev) a.acqName [node.stream.iniParams.streamId]
      node.stream.iniParams.beamIds a.acqNew) (metadata node a) = _
    rw [hchecks, bind_assoc]
    rfl
  rw [hstart, hdirs, solo_bind, solo_bind]
  rcases solo sem checks s with ⟨what | _, u⟩
  · rfl
  · exact solo_metadata a (defaultDev a.acqDev) a.acqName u

end

/-! ## Within reach -/

section
variable {σ : Type} {sem : (c : Call) → σ → c.Result × σ} {throws : Streaming → Option (List Char)} {node : Node}
variable {acqName acqDev acqMeta : List Char} {acqNew : Bool} {beams : List Int} {s : σ}

theorem streamToFiles_of_none {streaming : Streaming} (h : throws streaming = none) (uncaught : Bool) :
    streamToFiles throws streaming uncaught = ⟨.sent (.stream (true, streaming.pattern)), some streaming⟩ := by
  unfold streamToFiles
  rw [h]

theorem streamToFiles_of_some {streaming : Streaming} {what : List Char} (h : throws streaming = some what)
    (uncaught : Bool) : streamToFiles throws streaming uncaught =
      ⟨if uncaught then .thrown what else .sent (.stream (false, what)), none⟩ := by
  unfold streamToFiles
  rw [h]

theorem streamToFiles_anew (streaming : Streaming) (uncaught : Bool) :
    (streamToFiles throws streaming uncaught).set ≠ none ↔
      ∃ pattern, (streamToFiles throws streaming uncaught).outcome = .sent (.stream (true, pattern)) := by
  unfold streamToFiles
  cases throws streaming with
  | none => exact iff_of_true (fun h => nomatch h) ⟨_, rfl⟩
  | some what =>
    refine iff_of_false (fun h => h rfl) ?_
    rintro ⟨pattern, h⟩
    cases uncaught <;> cases h

def Collected (node : Node) (beams : List Int) (a : StreamArgs) : Prop :=
  (if a.nbeams = 0 then node.stream.iniParams.beamIds else a.beamIds) =
    if beams = [] then node.stream.iniParams.beamIds else beams.filter (· ∈ node.stream.iniParams.beamIds)

theorem streamEffect_off {a : StreamArgs} (hname : a.acqName = []) :
    streamEffect sem throws node s a = streamToFiles throws ⟨[], [], 0, false⟩ true := by
  unfold streamEffect
  rw [if_pos (by rw [hname]; rfl)]

theorem keepsContract_off {a : StreamArgs} (hname : a.acqName = []) :
    KeepsContract node a.acqName a.acqDev a.acqNew beams sem throws s (streamEffect sem throws node s a) := by
  rw [streamEffect_off hname]
  exact ⟨streamToFiles_anew _ _, fun _ hset => streamToFiles_of_none hset true, fun hne => absurd hname hne,
    fun hne => absurd hname hne⟩

theorem startAcq_result {a : StreamArgs} (hname : a.acqName ≠ [])
    (hmeta : node.stream.iniParams.beamIds = [] → ¬ (a.acqNew = true ∧ a.acqMeta ≠ [])) :
    (solo sem (startAcq node a) s).1 = (solo sem (checkDirs node a.acqName a.acqDev a.acqNew) s).1 := by
  by_cases hbeams : node.stream.iniParams.beamIds = []
  · rw [startAcq_nil hbeams, checkDirs_nil hbeams, metadata_nil_ok node (hmeta hbeams)]
  · exact startAcq_eq hbeams hname s

theorem streamEffect_on {a : StreamArgs} (hname : a.acqName ≠ []) :
    streamEffect sem throws node s a = match (solo sem (startAcq node a) s).1 with
      | .ok pattern =>
        streamToFiles throws ⟨pattern, if a.nbeams = 0 then node.stream.iniParams.beamIds else a.beamIds, 0,
          decide (node.stream.iniParams.nrfifreq > 0)⟩ false
      | .error what => ⟨.sent (.stream (false, what)), none⟩ := by
  unfold streamEffect
  rw [if_neg (mt List.length_eq_zero_iff.1 hname)]

/-- **The contract is kept**, where the beams are those that are asked for, or the checks of the directories throw. -/
theorem keepsContract_on {a : StreamArgs} (hname : a.acqName ≠ [])
    (hmeta : node.stream.iniParams.beamIds = [] → ¬ (a.acqNew = true ∧ a.acqMeta ≠ []))
    (hbeams : Collected node beams a ∨
      ∃ what, (solo sem (checkDirs node a.acqName a.acqDev a.acqNew) s).1 = .error what) :
    KeepsContract node a.acqName a.acqDev a.acqNew beams sem throws s (streamEffect sem throws node s a) := by
  rw [streamEffect_on hname, startAcq_result hname hmeta]
  cases hdirs : (solo sem (checkDirs node a.acqName a.acqDev a.acqNew) s).1 with
  | error what =>
    refine ⟨iff_of_false (fun h => h rfl) (fun ⟨_, h⟩ => (nomatch h)), fun h => absurd h hname, fun _ what' h => ?_,
      fun _ pattern h => ?_⟩
    · rw [hdirs] at h
      rw [Except.error.inj h]
    · rw [hdirs] at h
      cases h
  | ok pattern =>
    have hcollected : Collected node beams a := by
      rcases hbeams with hbeams | ⟨what, h⟩
      · exact hbeams
      · rw [hdirs] at h
        cases h
    have heffect : streamToFiles throws ⟨pattern, if a.nbeams = 0 then node.stream.iniParams.beamIds else a.beamIds, 0,
        decide (node.stream.iniParams.nrfifreq > 0)⟩ false = streamToFiles throws (requested node beams pattern) false := by
      rw [hcollected]
      rfl
    dsimp only
    rw [heffect]
    refine ⟨streamToFiles_anew _ _, fun h => absurd h hname, fun _ what h => ?_, fun _ pattern' h => ?_⟩
    · rw [hdirs] at h
      cases h
    · rw [hdirs] at h
      obtain rfl := Except.ok.inj h
      exact ⟨fun hset => streamToFiles_of_none hset false, fun _ hset => streamToFiles_of_some hset false⟩

end

/-! ## Out of reach -/

def obliging : (c : Call) → Unit → c.Result × Unit
  | .stat _,    _ => (.ok .dir, ())
  | .mkdir _,   _ => (.ok (), ())
  | .list _,    _ => (.ok [], ())
  | .write _ _, _ => (.ok (), ())

theorem solo_checkBeamdirs (acqdir : Filename) (newAcq : Bool) : ∀ beamIds : List Int,
    solo obliging (checkBeamdirs acqdir newAcq beamIds) () = (.ok (), ())
  | []      => rfl
  | b :: bs => by
    have hfirst : solo obliging (checkBeamdir acqdir newAcq b) () = (.ok (), ()) := by
      cases newAcq <;> rfl
    rw [checkBeamdirs]
    exact (solo_bind_of_ok hfirst).trans (solo_checkBeamdirs acqdir newAcq bs)

theorem solo_checkNfsBases : ∀ streamIds : List Int, solo obliging (checkNfsBases streamIds) () = (.ok (), ())
  | []      => rfl
  | i :: is => by
    have hfirst : solo obliging (checkAcqdirBase (nfsBase i)) () = (.ok (), ()) := rfl
    rw [checkNfsBases]
    exact (solo_bind_of_ok hfirst).trans (solo_checkNfsBases is)

theorem solo_checkAcqdir (base acqname : Filename) (beamIds : List Int) (newAcq : Bool) :
    solo obliging (checkAcqdir base acqname beamIds newAcq) () = (.ok (), ()) := by
  have hmake : solo obliging (makedir (base ++ '/' :: acqname) false) () = (.ok (), ()) := rfl
  exact (solo_bind_of_ok hmake).trans (solo_checkBeamdirs _ newAcq beamIds)

theorem solo_checkDirs {node : Node} {acqName acqDev : List Char} (acqNew : Bool) (hname : acqName ≠ [])
    (hbeams : node.stream.iniParams.beamIds ≠ [])
    (hdev : strcaseeq (defaultDev acqDev) "ssd".toList = true ∨ strcaseeq (defaultDev acqDev) "nfs".toList = true) :
    ∃ pattern, solo obliging (checkDirs node acqName acqDev acqNew) () = (.ok pattern, ()) := by
  unfold checkDirs acqnameToFilenamePattern
  rw [if_neg (asked_for hname hbeams)]
  by_cases hssd : strcaseeq (defaultDev acqDev) "ssd".toList = true
  · rw [if_pos hssd]
    have hbase : solo obliging (checkAcqdirBase ssdBase) () = (.ok (), ()) := rfl
    exact ⟨_, (solo_bind_of_ok hbase).trans (solo_bind_of_ok (solo_checkAcqdir ssdBase acqName _ acqNew))⟩
  · rw [if_neg hssd, if_pos (hdev.resolve_left hssd)]
    exact ⟨_, (solo_bind_of_ok (solo_checkNfsBases _)).trans
      (solo_bind_of_ok (solo_checkAcqdir (nfsBase 1) acqName _ acqNew))⟩

/-! ## Exactly -/

section
variable {node : Node} {o : Object} {acqName acqDev acqMeta : List Char} {acqNew : Bool} {n : UInt32}
variable {beams : Fin n.toNat → Int}

theorem handleStream_eq {σ : Type} (sem : (c : Call) → σ → c.Result × σ) (throws : Streaming → Option (List Char))
    (s : σ) (h : IsStreamRequest o acqName acqDev acqMeta acqNew beams) :
    handleStream sem throws node s o = streamEffect sem throws node s
      (argsOf node.stream.iniParams.beamIds acqName acqDev acqMeta acqNew beams) := by
  unfold handleStream
  rw [streamArgs_eq h]

theorem toInt_eq_zero_iff : toInt n = 0 ↔ List.ofFn beams = [] := by
  have hlt := n.toNat_lt
  have hn : toInt n = 0 ↔ n.toNat = 0 := by
    unfold toInt
    split <;> omega
  rw [hn, ← List.length_eq_zero_iff, List.length_ofFn]

/-- The beams are collected as they are asked for, if an `int` can count them or none of them is the stream's. -/
theorem collected_of {acqName acqDev acqMeta : List Char} {acqNew : Bool}
    (h : n.toNat < 2 ^ 31 ∨ ∀ b ∈ List.ofFn beams, b ∉ node.stream.iniParams.beamIds) :
    Collected node (List.ofFn beams) (argsOf node.stream.iniParams.beamIds acqName acqDev acqMeta acqNew beams) := by
  unfold Collected argsOf
  by_cases hnil : List.ofFn beams = []
  · rw [if_pos hnil, if_pos (toInt_eq_zero_iff.2 hnil)]
  · rw [if_neg hnil, if_neg (mt toInt_eq_zero_iff.1 hnil)]
    dsimp only
    by_cases hlt : n.toNat < 2 ^ 31
    · rw [if_pos hlt]
    · rw [if_neg hlt]
      symm
      rw [List.filter_eq_nil_iff]
      intro b hb
      simpa using h.resolve_left hlt b hb

theorem checkDirs_throws {σ : Type} (sem : (c : Call) → σ → c.Result × σ) (s : σ) (acqNew : Bool)
    (hname : acqName ≠ []) (hbeams : node.stream.iniParams.beamIds ≠ [])
    (hssd : strcaseeq (defaultDev acqDev) "ssd".toList = false)
    (hnfs : strcaseeq (defaultDev acqDev) "nfs".toList = false) :
    ∃ what, (solo sem (checkDirs node acqName acqDev acqNew) s).1 = .error what := by
  unfold checkDirs acqnameToFilenamePattern
  rw [if_neg (asked_for hname hbeams), if_neg (by rw [hssd]; decide), if_neg (by rw [hnfs]; decide)]
  exact ⟨_, rfl⟩

theorem keeps_of_withinReach (h : IsStreamRequest o acqName acqDev acqMeta acqNew beams)
    (hreach : WithinReach node acqName acqDev acqMeta acqNew (List.ofFn beams)) {σ : Type}
    (sem : (c : Call) → σ → c.Result × σ) (throws : Streaming → Option (List Char)) (s : σ) :
    KeepsContract node acqName acqDev acqNew (List.ofFn beams) sem throws s (handleStream sem throws node s o) := by
  rw [handleStream_eq sem throws s h]
  by_cases hname : acqName = []
  · exact keepsContract_off (a := argsOf _ acqName acqDev acqMeta acqNew beams) hname
  · obtain ⟨hmeta, hbeams⟩ := hreach.resolve_left hname
    apply keepsContract_on (a := argsOf _ acqName acqDev acqMeta acqNew beams) hname hmeta
    rw [List.length_ofFn] at hbeams
    rcases hbeams with hlt | hnone | ⟨hssd, hnfs⟩
    · exact .inl (collected_of (.inl hlt))
    · exact .inl (collected_of (.inr hnone))
    · by_cases hown : node.stream.iniParams.beamIds = []
      · exact .inl (collected_of (.inr (fun b _ => by rw [hown]; exact List.not_mem_nil)))
      · exact .inr (checkDirs_throws sem s acqNew hname hown hssd hnfs)

/-- A stream without beams, and metadata. -/
theorem not_keeps_of_metadata (h : IsStreamRequest o acqName acqDev acqMeta acqNew beams) (hname : acqName ≠ [])
    (hown : node.stream.iniParams.beamIds = []) (hmeta : acqNew = true ∧ acqMeta ≠ []) :
    ¬ KeepsContract node acqName acqDev acqNew (List.ofFn beams) obliging (fun _ => none) ()
      (handleStream obliging (fun _ => none) node () o) := by
  intro hkeeps
  have hdirs : (solo obliging (checkDirs node acqName acqDev acqNew) ()).1 = .ok [] := by
    rw [checkDirs_nil hown]
    rfl
  have hbecomes := (hkeeps.becomes hname [] hdirs).1 rfl
  obtain ⟨what, hwhat⟩ := metadata_nil_throws node
    (a := argsOf node.stream.iniParams.beamIds acqName acqDev acqMeta acqNew beams) hmeta
  rw [handleStream_eq obliging (fun _ => none) () h, streamEffect_on (by exact hname), startAcq_nil hown,
    hwhat] at hbecomes
  cases congrArg Effect.set hbecomes

/-- More beams than an `int` counts, some of them the stream's: it is left with none. -/
theorem not_keeps_of_length (h : IsStreamRequest o acqName acqDev acqMeta acqNew beams) (hname : acqName ≠ [])
    (hlen : ¬ n.toNat < 2 ^ 31) {b : Int} (hb : b ∈ List.ofFn beams) (hown : b ∈ node.stream.iniParams.beamIds)
    (hmeta : node.stream.iniParams.beamIds = [] → ¬ (acqNew = true ∧ acqMeta ≠ []))
    (hdev : strcaseeq (defaultDev acqDev) "ssd".toList = true ∨ strcaseeq (defaultDev acqDev) "nfs".toList = true) :
    ¬ KeepsContract node acqName acqDev acqNew (List.ofFn beams) obliging (fun _ => none) ()
      (handleStream obliging (fun _ => none) node () o) := by
  intro hkeeps
  have hbeams : node.stream.iniParams.beamIds ≠ [] := List.ne_nil_of_mem hown
  obtain ⟨pattern, hsolo⟩ := solo_checkDirs acqNew hname hbeams hdev
  have hdirs : (solo obliging (checkDirs node acqName acqDev acqNew) ()).1 = .ok pattern := by
    rw [hsolo]
  have hbecomes := (hkeeps.becomes hname pattern hdirs).1 rfl
  have hresult : (solo obliging
      (startAcq node (argsOf node.stream.iniParams.beamIds acqName acqDev acqMeta acqNew beams)) ()).1 = .ok pattern :=
    (startAcq_result (by exact hname) hmeta).trans hdirs
  rw [handleStream_eq obliging (fun _ => none) () h, streamEffect_on (by exact hname), hresult] at hbecomes
  unfold argsOf at hbecomes
  dsimp only at hbecomes
  rw [if_neg hlen, if_neg (mt toInt_eq_zero_iff.1 (List.ne_nil_of_mem hb))] at hbecomes
  have hset := congrArg (fun e : Effect => e.set.map (·.beamIds)) hbecomes
  have hnil : [] = (requested node (List.ofFn beams) pattern).beamIds := Option.some.inj hset
  unfold requested at hnil
  dsimp only at hnil
  rw [if_neg (List.ne_nil_of_mem hb)] at hnil
  have hmem : b ∈ (List.ofFn beams).filter (· ∈ node.stream.iniParams.beamIds) :=
    List.mem_filter.2 ⟨hb, by simpa using hown⟩
  rw [← hnil] at hmem
  cases hmem

end

/-- **A `stream` request does what it should**, whatever the system calls and `stream_to_files` do, if and only if it is
within reach. -/
theorem stream_keeps_iff (node : Node) (o : Object) (acqName acqDev acqMeta : List Char) (acqNew : Bool) (n : UInt32)
    (beams : Fin n.toNat → Int) (h : IsStreamRequest o acqName acqDev acqMeta acqNew beams) :
    (∀ (σ : Type) (sem : (c : Call) → σ → c.Result × σ) (throws : Streaming → Option (List Char)) (s : σ),
      KeepsContract node acqName acqDev acqNew (List.ofFn beams) sem throws s (handleStream sem throws node s o)) ↔
    WithinReach node acqName acqDev acqMeta acqNew (List.ofFn beams) := by
  constructor
  · intro hkeeps
    by_contra hreach
    obtain ⟨hname, hreach⟩ := not_or.1 hreach
    have hmeta : node.stream.iniParams.beamIds = [] → ¬ (acqNew = true ∧ acqMeta ≠ []) := fun hown hmeta =>
      not_keeps_of_metadata h hname hown hmeta (hkeeps Unit obliging (fun _ => none) ())
    obtain ⟨hlen, hrest⟩ := not_or.1 (fun hbeams => hreach ⟨hmeta, hbeams⟩)
    obtain ⟨hsome, hdev⟩ := not_or.1 hrest
    obtain ⟨b, hb, hown⟩ : ∃ b ∈ List.ofFn beams, b ∈ node.stream.iniParams.beamIds := by
      simpa using hsome
    have hdevice : strcaseeq (defaultDev acqDev) "ssd".toList = true ∨
        strcaseeq (defaultDev acqDev) "nfs".toList = true := by
      by_contra hno
      obtain ⟨hssd, hnfs⟩ := not_or.1 hno
      exact hdev ⟨Bool.eq_false_iff.2 hssd, Bool.eq_false_iff.2 hnfs⟩
    rw [List.length_ofFn] at hlen
    exact not_keeps_of_length h hname hlen hb hown hmeta hdevice (hkeeps Unit obliging (fun _ => none) ())
  · intro hreach σ sem throws s
    exact keeps_of_withinReach h hreach sem throws s

/-- A request for 2^31 times the beam 7. -/
def manyBeams : Object :=
  .array 5 (fun i => [.str "run1".toList, .str [], .str [], .array 2147483648 (fun _ => .posInt 7), .bool true].get i)

def beamSeven : Node :=
  { (default : Node) with
    stream := { (default : Node).stream with iniParams := { (default : Node).stream.iniParams with beamIds := [7] } } }

/-- The beam is asked for, all checks succeed, and the stream is left without it. -/
theorem stream_leaves_beamSeven :
    IsStreamRequest (n := 2147483648) manyBeams "run1".toList [] [] true (fun _ => 7) ∧
    ¬ KeepsContract beamSeven "run1".toList [] true
      (List.ofFn (fun _ : Fin (2147483648 : UInt32).toNat => (7 : Int))) obliging (fun _ => none) ()
      (handleStream obliging (fun _ => none) beamSeven () manyBeams) := by
  have hrequest : IsStreamRequest (n := 2147483648) manyBeams "run1".toList [] [] true (fun _ => 7) :=
    ⟨rfl, rfl, rfl, rfl, rfl, fun _ => .posInt 7, rfl, fun _ => rfl⟩
  have hmem : (7 : Int) ∈ List.ofFn (fun _ : Fin (2147483648 : UInt32).toNat => (7 : Int)) :=
    List.mem_ofFn.2 ⟨⟨0, by decide⟩, rfl⟩
  refine ⟨hrequest, ?_⟩
  apply not_keeps_of_length hrequest (by decide) (by decide) hmem
  · exact .head []
  · exact fun hnil => nomatch hnil
  · exact .inl (by decide)

def noBeam : Object :=
  .array 5 (fun i => [.str "run1".toList, .str [], .str [], .array 0 (fun j => nomatch j), .bool true].get i)

theorem stream_keeps_noBeam :
    KeepsContract beamSeven "run1".toList [] true (List.ofFn (fun j : Fin (0 : UInt32).toNat => nomatch j)) obliging
      (fun _ => none) () (handleStream obliging (fun _ => none) beamSeven () noBeam) := by
  have hrequest : IsStreamRequest (n := 0) noBeam "run1".toList [] [] true (fun j => nomatch j) :=
    ⟨rfl, rfl, rfl, rfl, rfl, fun j => (nomatch j), rfl, fun j => (nomatch j)⟩
  exact (stream_keeps_iff beamSeven noBeam "run1".toList [] [] true 0 (fun j => nomatch j) hrequest).2
    (.inr ⟨fun hnil => (nomatch hnil), .inl (by decide)⟩) Unit obliging (fun _ => none) ()

end Requests
end FrbL1
