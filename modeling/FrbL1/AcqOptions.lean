import FrbL1.AcqFiles
/-!
# AcqOptions — an acquisition on the command line

An acquisition given by `-a`, `-n` and `-b` starts as the same acquisition given in the parameter file
(`options_agree_with_file`), except that no `-b` at all does not mean all beams: then nothing is streamed.
-/
namespace FrbL1
namespace Config

open Conc (Prog)
open FileUtils
open Posix (Filename Tree)

/-! ## Parameters that are added to a file -/

def streamKeys : List String := ["stream_devname", "stream_acqname", "stream_beam_ids"]

def Paramfile.NoStream (p : Paramfile) : Prop := ∀ k ∈ streamKeys, p.node k = none

def Paramfile.extend (p : Paramfile) (nodes : List (String × Node)) : Paramfile := { p with nodes := p.nodes ++ nodes }

section
variable {α : Type} {p : Paramfile} {nodes : List (String × Node)} (hnodes : ∀ kv ∈ nodes, kv.1 ∈ streamKeys)
include hnodes

theorem node_extend {k : String} (hk : k ∉ streamKeys) : (p.extend nodes).node k = p.node k := by
  unfold Paramfile.node Paramfile.extend
  rw [List.lookup_append]
  have hnone : nodes.lookup k = none := by
    rw [List.lookup_eq_none_iff]
    intro kv hkv
    exact bne_iff_ne.2 (fun he => hk (he ▸ hnodes kv hkv))
  rw [hnone, Option.or_none]

theorem readScalar_extend (ty : YamlType α) {k : String} (hk : k ∉ streamKeys) :
    (p.extend nodes).readScalar ty k = p.readScalar ty k := by
  unfold Paramfile.readScalar
  rw [node_extend hnodes hk]
  rfl

theorem readScalarD_extend (ty : YamlType α) {k : String} (hk : k ∉ streamKeys) (default : α) :
    (p.extend nodes).readScalarD ty k default = p.readScalarD ty k default := by
  unfold Paramfile.readScalarD
  rw [node_extend hnodes hk]
  rfl

theorem readVector_extend (ty : YamlType α) {k : String} (hk : k ∉ streamKeys) :
    (p.extend nodes).readVector ty k = p.readVector ty k := by
  unfold Paramfile.readVector
  rw [node_extend hnodes hk]
  rfl

theorem readVectorD_extend (ty : YamlType α) {k : String} (hk : k ∉ streamKeys) (default : List α) :
    (p.extend nodes).readVectorD ty k default = p.readVectorD ty k default := by
  unfold Paramfile.readVectorD
  rw [node_extend hnodes hk]
  rfl

theorem readParams_extend (opts : Options) : readParams opts (p.extend nodes) = readParams opts p := by
  unfold readParams
  simp (disch := decide) only [readScalar_extend hnodes, readScalarD_extend hnodes, readVector_extend hnodes,
    readVectorD_extend hnodes]
  rfl

theorem readCommon_extend (env : Env) (opts : Options) :
    readCommon env opts (p.extend nodes) = readCommon env opts p := by
  unfold readCommon
  simp (disch := decide) only [readParams_extend hnodes, readVectorD_extend hnodes]

end

/-! ## Reading them -/

/-- The parameters say: this acquisition, on this device, and these beams, unless there are none. -/
structure Says (acqname devname : List Char) (beams : List Int) (nodes : List (String × Node)) : Prop where
  keys    : ∀ kv ∈ nodes, kv.1 ∈ streamKeys
  acqname : ∃ n, nodes.lookup "stream_acqname" = some n ∧ n.asString = some acqname
  devname : ∃ n, nodes.lookup "stream_devname" = some n ∧ n.asString = some devname
  beams   : if beams = [] then nodes.lookup "stream_beam_ids" = none
    else ∃ n, nodes.lookup "stream_beam_ids" = some n ∧
      (n.asInts = some beams ∨ n.asInts = none ∧ ∃ b, n.asInt = some b ∧ beams = [b])

theorem node_extend_stream {p : Paramfile} (hp : p.NoStream) (nodes : List (String × Node)) {k : String}
    (hk : k ∈ streamKeys) : (p.extend nodes).node k = nodes.lookup k := by
  have hnone : p.nodes.lookup k = none := hp k hk
  unfold Paramfile.node Paramfile.extend
  rw [List.lookup_append, hnone, Option.none_or]

section
variable {α : Type} {p : Paramfile} (ty : YamlType α) {k : String} {n : Node} (R : List String)

theorem run_readScalarD {a : α} (default : α) (hn : p.node k = some n) (ha : ty.as n = some a) :
    (p.readScalarD ty k default).run R = .ok (a, k :: R) := by
  unfold Paramfile.readScalarD Paramfile.readScalar2
  rw [hn]
  simp only [ha]
  rfl

theorem run_readVectorD {as : List α} (default : List α) (hn : p.node k = some n)
    (has : ty.asVector n = some as ∨ ty.asVector n = none ∧ ∃ a, ty.as n = some a ∧ as = [a]) :
    (p.readVectorD ty k default).run R = .ok (as, k :: R) := by
  unfold Paramfile.readVectorD Paramfile.readVector2
  rw [hn]
  rcases has with has | ⟨hnone, a, ha, rfl⟩
  · simp only [has]
    rfl
  · simp only [hnone, ha]
    rfl

end

theorem run_readStream_file {opts : Options} {p : Paramfile} {nodes : List (String × Node)} {acqname devname : List Char}
    {beams : List Int} (hopts : opts.acq = none) (hp : p.NoStream) (hgiven : Says acqname devname beams nodes)
    (c : L1Config) (R : List String) : ∃ R', (readStream opts (p.extend nodes) c).run R =
      .ok (c.setStream devname acqname (if beams = [] then c.beamIds else beams), R') ∧
      (∀ k, k ∉ streamKeys → (k ∈ R' ↔ k ∈ R)) ∧ ∀ kv ∈ nodes, kv.1 ∈ R' := by
  obtain ⟨nA, hA, hA'⟩ := hgiven.acqname
  obtain ⟨nD, hD, hD'⟩ := hgiven.devname
  have hbeams := hgiven.beams
  rw [← node_extend_stream hp nodes (by decide)] at hA hD
  unfold readStream
  rw [hopts]
  by_cases hB : beams = []
  · rw [if_pos hB] at hbeams
    have hnode : (p.extend nodes).node "stream_beam_ids" = none := by
      rw [node_extend_stream hp nodes (by decide)]
      exact hbeams
    refine ⟨"stream_acqname" :: "stream_devname" :: R, ?_, fun k hk => ?_, fun kv hkv => ?_⟩
    · simp only [StateT.run_bind, run_readScalarD string _ _ hD hD', run_readScalarD string _ _ hA hA',
        Paramfile.run_readVectorD_default _ hnode, ok_bind, if_pos hB]
      rfl
    · simp only [streamKeys, List.mem_cons, not_or] at hk
      simp [hk.1, hk.2.1]
    · have hkey := hgiven.keys kv hkv
      have hne := bne_iff_ne.1 (List.lookup_eq_none_iff.1 hbeams kv hkv)
      simp only [streamKeys, List.mem_cons, List.not_mem_nil, or_false] at hkey
      simp only [List.mem_cons]
      tauto
  · rw [if_neg hB] at hbeams
    obtain ⟨nB, hnode, hB'⟩ := hbeams
    rw [← node_extend_stream hp nodes (by decide)] at hnode
    refine ⟨"stream_beam_ids" :: "stream_acqname" :: "stream_devname" :: R, ?_, fun k hk => ?_, fun kv hkv => ?_⟩
    · simp only [StateT.run_bind, run_readScalarD string _ _ hD hD', run_readScalarD string _ _ hA hA',
        run_readVectorD int _ _ hnode hB', ok_bind, if_neg hB]
      rfl
    · simp only [streamKeys, List.mem_cons, not_or] at hk
      simp [hk.1, hk.2.1, hk.2.2.1]
    · have hkey := hgiven.keys kv hkv
      simp only [streamKeys, List.mem_cons, List.not_mem_nil, or_false] at hkey
      simp only [List.mem_cons]
      tauto

/-! ## The two ways -/

/-- `-a`, with `-n` and `-b`. -/
def Options.withAcq (opts : Options) (acqname : List Char) (nfs : Bool) (beams : List Int) : Options :=
  { opts with acq := some acqname, nfs, beams }

def devnameOf (nfs : Bool) : List Char := if nfs then "nfs".toList else "ssd".toList

theorem run_readStream_options {opts : Options} {p : Paramfile} {acqname : List Char} (hname : acqname ≠ "none".toList)
    (nfs : Bool) (beams : List Int) (c : L1Config) (R : List String) :
    (readStream (opts.withAcq acqname nfs beams) p c).run R = .ok (c.setStream (devnameOf nfs) acqname beams, R) := by
  unfold readStream Options.withAcq
  simp only [if_neg hname]
  rfl

theorem run_readStream_none {opts : Options} {p : Paramfile} (c : L1Config) (R : List String) :
    (readStream { opts with acq := some "none".toList } p c).run R = .ok (c.setStream [] [] [], R) := by
  unfold readStream
  simp only [if_pos]
  rfl

theorem checkForUnusedParams_extend {p : Paramfile} {nodes : List (String × Node)} {R R' : List String}
    (hp : p.NoStream) (hR : ∀ k, k ∉ streamKeys → (k ∈ R' ↔ k ∈ R)) (hnodes : ∀ kv ∈ nodes, kv.1 ∈ R') :
    (p.extend nodes).checkForUnusedParams R' = p.checkForUnusedParams R := by
  unfold Paramfile.checkForUnusedParams Paramfile.extend
  have hall : nodes.all (fun kv => R'.contains kv.1) = true := by
    rw [List.all_eq_true]
    exact fun kv hkv => List.contains_iff_mem.2 (hnodes kv hkv)
  rw [List.all_append, hall, Bool.and_true, Bool.eq_iff_iff, List.all_eq_true, List.all_eq_true]
  refine forall_congr' (fun kv => forall_congr' (fun hkv => ?_))
  have hk : kv.1 ∉ streamKeys := fun hk => by
    have hnone := List.lookup_eq_none_iff.1 (hp kv.1 hk) kv hkv
    simp at hnone
  rw [List.contains_iff_mem, List.contains_iff_mem, hR kv.1 hk]

theorem finishConfig_extend (env : Env) (bonsai : Option BonsaiConfig) {p : Paramfile} {nodes : List (String × Node)}
    {R R' : List String} (hp : p.NoStream) (hR : ∀ k, k ∉ streamKeys → (k ∈ R' ↔ k ∈ R))
    (hnodes : ∀ kv ∈ nodes, kv.1 ∈ R') (c : L1Config) :
    finishConfig env bonsai (p.extend nodes) R' c = finishConfig env bonsai p R c := by
  unfold finishConfig hasWarnings
  rw [checkForUnusedParams_extend hp hR hnodes]

theorem run'_readConfig (env : Env) (opts : Options) (p : Paramfile) :
    (readConfig env opts p).run' [] = (readCommon env opts p).run [] >>= fun x =>
      (readStream opts p x.1.1).run x.2 >>= fun y => finishConfig env x.1.2 p y.2 y.1 := by
  unfold readConfig
  rw [StateT.run'_eq, StateT.run_bind]
  cases (readCommon env opts p).run [] with
  | error e => rfl
  | ok x =>
    simp only [ok_bind, StateT.run_bind]
    cases (readStream opts p x.1.1).run x.2 with
    | error e => rfl
    | ok y =>
      simp only [ok_bind]
      show Prod.fst <$> (finishConfig env x.1.2 p y.2 y.1 >>= fun c => .ok (c, y.2)) = _
      cases finishConfig env x.1.2 p y.2 y.1 <;> rfl

theorem readConfig_options (env : Env) (opts : Options) (p : Paramfile) {acqname : List Char}
    (hname : acqname ≠ "none".toList) (nfs : Bool) (beams : List Int) :
    (readConfig env (opts.withAcq acqname nfs beams) p).run' [] = (readCommon env opts p).run [] >>= fun x =>
      finishConfig env x.1.2 p x.2 (x.1.1.setStream (devnameOf nfs) acqname beams) := by
  rw [run'_readConfig]
  show (readCommon env opts p).run [] >>= _ = _
  refine congrArg _ (funext (fun x => ?_))
  rw [run_readStream_options hname, ok_bind]

theorem readConfig_file (env : Env) {opts : Options} {p : Paramfile} {nodes : List (String × Node)} {acqname : List Char}
    {nfs : Bool} {beams : List Int} (hopts : opts.acq = none) (hp : p.NoStream)
    (hgiven : Says acqname (devnameOf nfs) beams nodes) :
    (readConfig env opts (p.extend nodes)).run' [] = (readCommon env opts p).run [] >>= fun x =>
      finishConfig env x.1.2 p x.2
        (x.1.1.setStream (devnameOf nfs) acqname (if beams = [] then x.1.1.beamIds else beams)) := by
  rw [run'_readConfig, readCommon_extend hgiven.keys]
  refine congrArg _ (funext (fun x => ?_))
  obtain ⟨R', hrun, hR, hnodes⟩ := run_readStream_file hopts hp hgiven x.1.1 x.2
  rw [hrun, ok_bind, finishConfig_extend env x.1.2 hp hR hnodes]

/-- **With some beams, the two ways are one.** -/
theorem l1Server_options (env : Env) (numCores : Int) {opts : Options} {p : Paramfile} {nodes : List (String × Node)}
    {acqname : List Char} {nfs : Bool} {beams : List Int} (hopts : opts.acq = none) (hp : p.NoStream)
    (hname : acqname ≠ "none".toList) (hgiven : Says acqname (devnameOf nfs) beams nodes) (hbeams : beams ≠ [])
    (t : Tree) :
    l1Server env numCores (opts.withAcq acqname nfs beams) p t = l1Server env numCores opts (p.extend nodes) t := by
  have hread : (readConfig env (opts.withAcq acqname nfs beams) p).run' [] =
      (readConfig env opts (p.extend nodes)).run' [] := by
    rw [readConfig_options env opts p hname, readConfig_file env hopts hp hgiven]
    simp only [if_neg hbeams]
  unfold l1Server l1Config
  rw [hread]

/-! ## No beams on the command line -/

theorem derive_setStream (env : Env) (bonsai : Option BonsaiConfig) (c : L1Config) (devname acqname : List Char)
    (beams : List Int) : deriveL1b bonsai (deriveParams env (c.setStream devname acqname beams)) =
      (deriveL1b bonsai (deriveParams env c)).setStream devname acqname beams := by
  cases bonsai with
  | none => rfl
  | some bonsai =>
    unfold deriveL1b
    by_cases hpos : c.l1bBufferNsamples > 0
    · have h₁ : (deriveParams env (c.setStream devname acqname beams)).l1bBufferNsamples > 0 := hpos
      have h₂ : (deriveParams env c).l1bBufferNsamples > 0 := hpos
      simp only [if_pos h₁, if_pos h₂]
      rfl
    · have h₁ : ¬ (deriveParams env (c.setStream devname acqname beams)).l1bBufferNsamples > 0 := hpos
      have h₂ : ¬ (deriveParams env c).l1bBufferNsamples > 0 := hpos
      simp only [if_neg h₁, if_neg h₂]
      rfl

theorem finishConfig_setStream {env : Env} {bonsai : Option BonsaiConfig} {p : Paramfile} {R : List String}
    {c c₁ : L1Config} {devname acqname devname' acqname' : List Char} {beams beams' : List Int}
    (h : finishConfig env bonsai p R (c.setStream devname acqname beams) = .ok c₁)
    (hbeams' : ∀ b ∈ beams', b ∈ c.beamIds) :
    finishConfig env bonsai p R (c.setStream devname' acqname' beams') =
      .ok (c₁.setStream devname' acqname' beams') := by
  have hsub : runChecks (streamChecks (c.setStream devname' acqname' beams')) = .ok () := by
    have hnone : beams'.any (fun b => !c.beamIds.contains b) = false := by
      rw [List.any_eq_false]
      intro b hb
      simp [hbeams' b hb]
    unfold streamChecks runChecks
    exact if_neg (fun h => absurd (hnone.symm.trans h) (by decide))
  have hc₁ := (finishConfig_ok h).1
  rw [derive_setStream] at hc₁
  unfold finishConfig at h ⊢
  obtain ⟨_, -, h⟩ := bind_eq_ok h
  rw [hsub, ok_bind]
  simp only [derive_setStream] at h ⊢
  have hstream : (deriveL1b bonsai (deriveParams env c)).setStream devname' acqname' beams' =
      c₁.setStream devname' acqname' beams' := by rw [hc₁]; rfl
  rw [← hc₁] at h
  rw [hstream]
  have hwarn : hasWarnings bonsai p R (c₁.setStream devname' acqname' beams') = hasWarnings bonsai p R c₁ := by
    cases bonsai <;> rfl
  rw [hwarn]
  split at h
  · rename_i hw
    obtain ⟨_, hforce, -⟩ := bind_eq_ok h
    have hforce' : (c₁.setStream devname' acqname' beams').haveWarnings = .ok () := hforce
    rw [if_pos hw, hforce']
    rfl
  · rename_i hw
    rw [if_neg hw]
    rfl

theorem server_without_beams {env : Env} {numCores : Int} {opts opts' : Options} {p p' q : Paramfile} {t : Tree}
    {s : L1Server} {x : Except Stop ((L1Config × Option BonsaiConfig) × List String)}
    {devname acqname devname' acqname' : List Char} {beams : (L1Config × Option BonsaiConfig) × List String → List Int}
    (hread : (readConfig env opts p).run' [] =
      x >>= fun y => finishConfig env y.1.2 q y.2 (y.1.1.setStream devname acqname (beams y)))
    (hread' : (readConfig env opts' p').run' [] =
      x >>= fun y => finishConfig env y.1.2 q y.2 (y.1.1.setStream devname' acqname' []))
    (h : (l1Server env numCores opts p t).1 = .ok s) :
    ∃ s', (l1Server env numCores opts' p' t).1 = .ok s' ∧ s'.config.streamFilenamePattern = [] := by
  obtain ⟨hc, hn, hss⟩ := l1Server_eq_ok.1 h
  obtain ⟨c₁, pattern, t', hrun, -, hconfig⟩ := l1Config_eq_ok.1 hc
  rw [hread] at hrun
  obtain ⟨y, hy, hfin⟩ := bind_eq_ok hrun
  have hrun' : (readConfig env opts' p').run' [] = .ok (c₁.setStream devname' acqname' []) := by
    rw [hread', hy, ok_bind]
    exact finishConfig_setStream hfin (fun b hb => nomatch hb)
  have hdirs : makeAcqdirs (c₁.setStream devname' acqname' []) = .ret [] := acqnameToFilenamePattern_nil _ _ _ _
  have hc' := l1Config_eq_ok.2 ⟨_, [], t, hrun', by rw [hdirs]; rfl, rfl⟩
  rw [hconfig] at hn hss
  obtain ⟨nstreamsPerCpu, nbeamsPerStream, nupfreq, h₁, h₂, h₃, hmake, -⟩ := makeInputStreams_eq_ok.1 hss
  have hss' : ∃ ss, makeInputStreams env s.ncpus ((c₁.setStream devname' acqname' []).setPattern []) = .ok ss :=
    ⟨_, makeInputStreams_eq_ok.2 ⟨_, _, _, h₁, h₂, h₃, hmake, rfl⟩⟩
  obtain ⟨ss, hss'⟩ := hss'
  exact ⟨⟨(c₁.setStream devname' acqname' []).setPattern [], s.ncpus, ss⟩, l1Server_eq_ok.2 ⟨hc', hn, hss'⟩, rfl⟩

theorem pattern_ne_nil {devname acqname pattern : Filename} {streamIds beamIds : List Int} {newAcq : Bool} {t t' : Tree}
    (hname : acqname ≠ []) (hbeams : beamIds ≠ [])
    (h : Prog.solo Posix.perform (acqnameToFilenamePattern devname acqname streamIds beamIds newAcq) t =
      (.ok pattern, t')) : pattern ≠ [] := by
  obtain ⟨checks, hp⟩ := acqnameToFilenamePattern_eq devname streamIds newAcq hname hbeams
  rw [hp] at h
  obtain ⟨_, u, -, hlast⟩ := Prog.solo_bind_ok h
  obtain rfl : _ = pattern := Except.ok.inj (congrArg Prod.fst hlast)
  exact List.append_ne_nil_of_right_ne_nil _ (List.cons_ne_nil _ _)

theorem server_with_all_beams {env : Env} {numCores : Int} {opts opts' : Options} {p p' q : Paramfile} {t : Tree}
    {s : L1Server} {devname acqname : List Char} (hacq : acqname ≠ [])
    (hread : (readConfig env opts p).run' [] = (readCommon env opts' p').run [] >>=
      fun x => finishConfig env x.1.2 q x.2 (x.1.1.setStream devname acqname x.1.1.beamIds))
    (h : (l1Server env numCores opts p t).1 = .ok s) : s.config.streamFilenamePattern ≠ [] := by
  obtain ⟨c₁, pattern, t', hrun, hsolo, hconfig⟩ := l1Config_eq_ok.1 (l1Server_eq_ok.1 h).1
  rw [hread] at hrun
  obtain ⟨⟨⟨c, bonsai⟩, R⟩, hcommon, hfin⟩ := bind_eq_ok hrun
  have hc₁ := (finishConfig_ok hfin).1.trans (derive_setStream env bonsai c devname acqname c.beamIds)
  rw [hconfig]
  rw [hc₁] at hsolo
  exact pattern_ne_nil hacq (readCommon_sane hcommon).beamIds_ne_nil hsolo

def streamed (x : Except Stop L1Server × Tree) : Option (Filename × List (List Int)) :=
  x.1.toOption.map (fun s => (s.config.streamFilenamePattern, s.inputStreams.map (·.streaming.beamIds)))

theorem streamed_eq_some {x : Except Stop L1Server × Tree} {y : Filename × List (List Int)} :
    streamed x = some y ↔ ∃ s, x.1 = .ok s ∧
      (s.config.streamFilenamePattern, s.inputStreams.map (·.streaming.beamIds)) = y := by
  unfold streamed
  cases x.1 with
  | error e => simp [Except.toOption]
  | ok s => simp [Except.toOption]

theorem streamed_eq_none {x : Except Stop L1Server × Tree} (h : ∀ s, x.1 ≠ .ok s) : streamed x = none := by
  rw [Option.eq_none_iff_forall_ne_some]
  intro y hy
  obtain ⟨s, hs, -⟩ := streamed_eq_some.1 hy
  exact h s hs

/-- Without any beams on the command line the two ways differ, where the server starts at all. -/
theorem options_without_beams {env : Env} {numCores : Int} {opts : Options} {p : Paramfile}
    {nodes : List (String × Node)} {acqname : List Char} {nfs : Bool} {t : Tree} (hopts : opts.acq = none)
    (hp : p.NoStream) (hacq : acqname ≠ []) (hname : acqname ≠ "none".toList)
    (hgiven : Says acqname (devnameOf nfs) [] nodes) :
    streamed (l1Server env numCores (opts.withAcq acqname nfs []) p t) =
        streamed (l1Server env numCores opts (p.extend nodes) t) ↔
      ∀ s, (l1Server env numCores { opts with acq := some "none".toList } p t).1 ≠ .ok s := by
  have hcli := readConfig_options env opts p hname nfs []
  have hfile := readConfig_file env hopts hp hgiven
  have hnone : (readConfig env { opts with acq := some "none".toList } p).run' [] = (readCommon env opts p).run [] >>=
      fun x => finishConfig env x.1.2 p x.2 (x.1.1.setStream [] [] []) := by
    rw [run'_readConfig]
    refine congrArg _ (funext (fun x => ?_))
    rw [run_readStream_none, ok_bind]
  constructor
  · intro hsame s hs
    obtain ⟨s₁, hs₁, hpat₁⟩ := server_without_beams hnone hcli hs
    obtain ⟨s₂, hs₂, hpat₂⟩ := streamed_eq_some.1 (hsame.symm.trans (streamed_eq_some.2 ⟨s₁, hs₁, rfl⟩))
    exact server_with_all_beams hacq hfile hs₂ ((congrArg Prod.fst hpat₂).trans hpat₁)
  · intro hno
    rw [streamed_eq_none (fun s hs => ?_), streamed_eq_none (fun s hs => ?_)]
    · obtain ⟨s', hs', -⟩ := server_without_beams hfile hnone hs
      exact hno s' hs'
    · obtain ⟨s', hs', -⟩ := server_without_beams hcli hnone hs
      exact hno s' hs'

/-- **The options agree with the file exactly if there are beams**, for a server that starts (without an acquisition,
at least); one that does not start streams nothing either way. -/
theorem options_agree_with_file (env : Env) (numCores : Int) (opts : Options) (p : Paramfile)
    (nodes : List (String × Node)) (acqname : List Char) (nfs : Bool) (beams : List Int) (t : Tree)
    (hopts : opts.acq = none) (hp : p.NoStream) (hacq : acqname ≠ []) (hname : acqname ≠ "none".toList)
    (hgiven : Says acqname (devnameOf nfs) beams nodes) :
    let same := streamed (l1Server env numCores (opts.withAcq acqname nfs beams) p t) =
      streamed (l1Server env numCores opts (p.extend nodes) t)
    let starts := ∃ s, (l1Server env numCores { opts with acq := some "none".toList } p t).1 = .ok s
    (starts → (same ↔ beams ≠ [])) ∧ (¬ starts → same) := by
  intro same starts
  by_cases hbeams : beams = []
  · subst hbeams
    have hiff : same ↔ ¬ starts := by
      rw [not_exists]
      exact options_without_beams hopts hp hacq hname hgiven
    exact ⟨fun hs => ⟨fun h => absurd hs (hiff.1 h), fun h => absurd rfl h⟩, hiff.2⟩
  · have hsame : same := congrArg streamed (l1Server_options env numCores hopts hp hname hgiven hbeams t)
    exact ⟨fun _ => ⟨fun _ => hbeams, fun _ => hsame⟩, fun _ => hsame⟩

/-! ## A node with one beam -/

/-- **No beams on the command line**: the file would stream the beam, the options do not. -/
theorem options_stream_nothing :
    let nodes := [("stream_acqname", text "run1".toList), ("stream_devname", text "ssd".toList)]
    oneBeam.NoStream ∧ Says "run1".toList (devnameOf false) [] nodes ∧
      streamed (l1Server plainEnv 20 (toyOptions.withAcq "run1".toList false []) oneBeam localDisk) = some ([], [[]]) ∧
      streamed (l1Server plainEnv 20 toyOptions (oneBeam.extend nodes) localDisk) =
        some ("/local/acq_data/run1/beam_(BEAM)/chunk_(CHUNK).msg".toList, [[0]]) := by
  refine ⟨by unfold Paramfile.NoStream; decide +kernel, ⟨by decide, ⟨_, rfl, rfl⟩, ⟨_, rfl, rfl⟩, ?_⟩, by decide +kernel,
    by decide +kernel⟩
  rfl

theorem options_agree_with_file_one :
    let nodes := [("stream_acqname", text "run1".toList), ("stream_devname", text "ssd".toList),
      ("stream_beam_ids", scalar 0)]
    streamed (l1Server plainEnv 20 (toyOptions.withAcq "run1".toList false [0]) oneBeam localDisk) =
      streamed (l1Server plainEnv 20 toyOptions (oneBeam.extend nodes) localDisk) := by
  intro nodes
  have hgiven : Says "run1".toList (devnameOf false) [0] nodes :=
    ⟨by decide, ⟨_, rfl, rfl⟩, ⟨_, rfl, rfl⟩, ⟨_, rfl, .inr ⟨rfl, 0, rfl, rfl⟩⟩⟩
  obtain ⟨h, h'⟩ := options_agree_with_file plainEnv 20 toyOptions oneBeam nodes "run1".toList false [0] localDisk rfl
    (by unfold Paramfile.NoStream; decide +kernel) (by decide) (by decide) hgiven
  by_cases hstarts : ∃ s, (l1Server plainEnv 20 { toyOptions with acq := some "none".toList } oneBeam localDisk).1 = .ok s
  · exact (h hstarts).2 (by decide)
  · exact h' hstarts

end Config
end FrbL1
