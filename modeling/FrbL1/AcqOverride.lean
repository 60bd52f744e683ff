import FrbL1.AcqOptions
/-!
# AcqOverride — an accepted file, and an acquisition on the command line

With `-a` the parameters about streaming are not read, and what is not read is unused: a file that has one of them is
accepted without `-a` and rejected with it (`overridable_iff`).
-/
namespace FrbL1
namespace Config

open Conc (Prog)
open FileUtils
open Posix (Filename Tree)

/-! ## What is requested -/

section
variable {α β : Type} {K : String → Prop} {Q : α → Prop}

def Asks (K : String → Prop) (Q : α → Prop) (x : Reading α) : Prop :=
  ∀ R y, x.run R = .ok y → Q y.1 ∧ ∀ k ∈ y.2, k ∈ R ∨ K k

theorem asks_pure {a : α} (h : Q a) : Asks K Q (pure a : Reading α) := by
  intro R y hy
  cases hy
  exact ⟨h, fun _ hk => .inl hk⟩

theorem asks_lift {x : Except Stop α} (h : ∀ a, x = .ok a → Q a) : Asks K Q (liftM x : Reading α) := by
  intro R y hy
  obtain ⟨hx, hR⟩ := run_lift_eq_ok hy
  rw [hR]
  exact ⟨h y.1 hx, fun _ hk => .inl hk⟩

theorem asks_bind {x : Reading α} {f : α → Reading β} {Q' : β → Prop} (hx : Asks K Q x)
    (hf : ∀ a, Q a → Asks K Q' (f a)) : Asks K Q' (x >>= f) := by
  intro R y hy
  obtain ⟨a, R', hrun, hy⟩ := run_bind_eq_ok hy
  obtain ⟨hQ, hR'⟩ := hx R _ hrun
  obtain ⟨hQ', hy2⟩ := hf a hQ R' y hy
  refine ⟨hQ', fun k hk => ?_⟩
  rcases hy2 k hk with h | h
  · exact hR' k h
  · exact .inr h

variable {p : Paramfile} {ty : YamlType α} {k : String}

theorem asks_die (txt : String) : Asks K Q (p.die txt : Reading α) := fun _ _ hy => nomatch hy

theorem asks_requested (hk : K k) {a : α} (hQ : Q a) : Asks K Q (do modify (k :: ·); return a : Reading α) := by
  intro R y hy
  cases hy
  refine ⟨hQ, fun k' hk' => ?_⟩
  rcases List.mem_cons.1 hk' with rfl | hk'
  · exact .inr hk
  · exact .inl hk'

theorem asks_readScalar2 (hk : K k) (n : Node) : Asks K (fun _ => True) (p.readScalar2 ty k n) := by
  unfold Paramfile.readScalar2
  split
  · exact asks_requested hk trivial
  · exact asks_die _

theorem asks_readScalar (hk : K k) : Asks K (fun _ => True) (p.readScalar ty k) := by
  unfold Paramfile.readScalar
  split
  · exact asks_readScalar2 hk _
  · exact asks_die _

theorem asks_readScalarD (hk : K k) {default : α} : Asks K (fun _ => True) (p.readScalarD ty k default) := by
  unfold Paramfile.readScalarD
  split
  · exact asks_readScalar2 hk _
  · exact asks_pure trivial

theorem asks_readVector2 (hk : K k) (n : Node) : Asks K (fun _ => True) (p.readVector2 ty k n) := by
  unfold Paramfile.readVector2
  split
  · exact asks_requested hk trivial
  · exact asks_requested hk trivial
  · exact asks_die _

theorem asks_readVector (hk : K k) : Asks K (fun _ => True) (p.readVector ty k) := by
  unfold Paramfile.readVector
  split
  · exact asks_readVector2 hk _
  · exact asks_die _

theorem asks_readVectorD (hk : K k) {default : List α} : Asks K (fun _ => True) (p.readVectorD ty k default) := by
  unfold Paramfile.readVectorD
  split
  · exact asks_readVector2 hk _
  · exact asks_pure trivial

end

theorem asks_readParams (opts : Options) (p : Paramfile) :
    Asks (· ∉ streamKeys) (fun c => c.fflag = opts.force) (readParams opts p) := by
  unfold readParams
  iterate 3 refine asks_bind (asks_readScalar (by decide)) (fun _ _ => ?_)
  refine asks_bind (asks_readScalarD (by decide)) (fun _ _ => ?_)
  iterate 2 refine asks_bind (asks_readScalar (by decide)) (fun _ _ => ?_)
  iterate 4 refine asks_bind (asks_readVector (by decide)) (fun _ _ => ?_)
  refine asks_bind (asks_readScalarD (by decide)) (fun _ _ => ?_)
  refine asks_bind (asks_readScalar (by decide)) (fun _ _ => ?_)
  iterate 5 refine asks_bind (asks_readScalarD (by decide)) (fun _ _ => ?_)
  refine asks_bind (asks_readVectorD (by decide)) (fun _ _ => ?_)
  refine asks_bind (asks_readScalarD (by decide)) (fun _ _ => ?_)
  refine asks_bind (asks_readVector (by decide)) (fun _ _ => ?_)
  refine asks_bind (asks_readScalarD (by decide)) (fun _ _ => ?_)
  simp only
  split
  · iterate 7 refine asks_bind (asks_readScalarD (by decide)) (fun _ _ => ?_)
    exact asks_pure rfl
  · refine asks_bind (asks_readScalar (by decide)) (fun _ _ => ?_)
    iterate 6 refine asks_bind (asks_readScalarD (by decide)) (fun _ _ => ?_)
    exact asks_pure rfl

theorem fflag_mapAddresses {env : Env} {c c' : L1Config} (h : mapAddresses env c = .ok c') : c'.fflag = c.fflag := by
  unfold mapAddresses at h
  obtain ⟨_, -, h⟩ := bind_eq_ok h
  obtain ⟨_, -, h⟩ := bind_eq_ok h
  cases h
  rfl

theorem fflag_setNstreams {c c' : L1Config} (h : setNstreams c = .ok c') : c'.fflag = c.fflag := by
  obtain ⟨ipaddr, port, hbroadcast⟩ := broadcastIpaddr_eq c
  unfold setNstreams countStreams at h
  rw [hbroadcast] at h
  split at h
  · cases h
  · cases h
    rfl

theorem asks_readCommon (env : Env) (opts : Options) (p : Paramfile) :
    Asks (· ∉ streamKeys) (fun x => x.1.fflag = opts.force) (readCommon env opts p) := by
  unfold readCommon
  refine asks_bind (asks_lift (Q := fun _ => True) (fun _ _ => trivial)) (fun _ _ => ?_)
  refine asks_bind (asks_lift (Q := fun _ => True) (fun _ _ => trivial)) (fun bonsai _ => ?_)
  refine asks_bind (asks_readParams opts p) (fun c₀ h₀ => ?_)
  refine asks_bind (asks_lift (Q := fun c => c.fflag = opts.force) (fun _ h => (fflag_mapAddresses h).trans h₀))
    (fun c₁ h₁ => ?_)
  refine asks_bind (asks_lift (Q := fun c => c.fflag = opts.force) (fun _ h => (fflag_setNstreams h).trans h₁))
    (fun c₂ h₂ => ?_)
  refine asks_bind (asks_lift (Q := fun _ => True) (fun _ _ => trivial)) (fun _ _ => ?_)
  refine asks_bind (asks_readVectorD (by decide)) (fun _ _ => ?_)
  refine asks_bind (asks_lift (Q := fun _ => True) (fun _ _ => trivial)) (fun _ _ => ?_)
  exact asks_pure h₂

/-! ## The two runs -/

def Paramfile.unusedKeys (p : Paramfile) (requestedKeys : List String) : List String :=
  (p.nodes.map (·.1)).filter (fun k => !requestedKeys.contains k)

theorem checkForUnusedParams_iff {p : Paramfile} {R : List String} :
    p.checkForUnusedParams R = true ↔ ∀ k ∈ p.nodes.map (·.1), k ∈ R := by
  unfold Paramfile.checkForUnusedParams
  rw [List.all_eq_true, List.forall_mem_map]
  exact forall_congr' (fun kv => forall_congr' (fun _ => List.contains_iff_mem))

/-- The keys that the constructor finds unused, where it gets that far. -/
def unusedKeys (env : Env) (opts : Options) (p : Paramfile) : Except Stop (List String) := do
  let x ← (readCommon env opts p).run []
  let y ← (readStream opts p x.1.1).run x.2
  return p.unusedKeys y.2

def DirsPass (t : Tree) (c : L1Config) (acqname : List Char) (nfs : Bool) (beams : List Int) : Prop :=
  acqname = "none".toList ∨ ∃ pattern t', Prog.solo Posix.perform
    (acqnameToFilenamePattern (devnameOf nfs) acqname (vrange 1 (c.nstreams + 1)) beams true) t = (.ok pattern, t')

/-- **Any acquisition may be given on the command line**: `-a`, with any `-n` and with `-b` for beams of the node. -/
def Overridable (env : Env) (opts : Options) (p : Paramfile) (t : Tree) (c : L1Config) : Prop :=
  ∀ (acqname : List Char) (nfs : Bool) (beams : List Int), (∀ b ∈ beams, b ∈ c.beamIds) → DirsPass t c acqname nfs beams →
    (∃ c', (l1Config env (opts.withAcq acqname nfs beams) p t).1 = .ok c') ∧
      unusedKeys env (opts.withAcq acqname nfs beams) p = unusedKeys env opts p

theorem run_readStream_withAcq (opts : Options) (p : Paramfile) (acqname : List Char) (nfs : Bool) (beams : List Int)
    (c : L1Config) (R : List String) : ∃ devname acqname' beams',
      (readStream (opts.withAcq acqname nfs beams) p c).run R = .ok (c.setStream devname acqname' beams', R) ∧
      (acqname = "none".toList ∧ beams' = [] ∨
        acqname ≠ "none".toList ∧ devname = devnameOf nfs ∧ acqname' = acqname ∧ beams' = beams) := by
  by_cases hname : acqname = "none".toList
  · refine ⟨[], [], [], ?_, .inl ⟨hname, rfl⟩⟩
    unfold readStream Options.withAcq
    simp only [if_pos hname]
    rfl
  · exact ⟨_, _, _, run_readStream_options hname nfs beams c R, .inr ⟨hname, rfl, rfl, rfl⟩⟩

theorem run_readScalarD_default {α : Type} {p : Paramfile} {ty : YamlType α} {k : String} {R : List String} (default : α)
    (hn : p.node k = none) : (p.readScalarD ty k default).run R = .ok (default, R) := by
  unfold Paramfile.readScalarD
  rw [hn]
  rfl

theorem run_readStream_noStream {opts : Options} {p : Paramfile} (hopts : opts.acq = none) (hp : p.NoStream)
    (c : L1Config) (R : List String) :
    (readStream opts p c).run R = .ok (c.setStream "ssd".toList [] c.beamIds, R) := by
  unfold readStream
  rw [hopts]
  simp only [StateT.run_bind, run_readScalarD_default _ (hp "stream_devname" (by decide)),
    run_readScalarD_default _ (hp "stream_acqname" (by decide)),
    Paramfile.run_readVectorD_default _ (hp "stream_beam_ids" (by decide)), ok_bind]
  rfl

theorem unusedKeys_of_readStream {env : Env} {opts : Options} {p : Paramfile}
    (h : ∀ c R, ∃ c', (readStream opts p c).run R = .ok (c', R)) :
    unusedKeys env opts p = (readCommon env opts p).run [] >>= fun x => .ok (p.unusedKeys x.2) := by
  unfold unusedKeys
  refine congrArg _ (funext (fun x => ?_))
  obtain ⟨c', hx⟩ := h x.1.1 x.2
  rw [hx]
  rfl

/-- **A file without streaming**: the acquisition only has to pass its own checks. -/
theorem overridable_of_noStream {env : Env} {opts : Options} {p : Paramfile} {t : Tree} {c : L1Config}
    (hopts : opts.acq = none) (h : (l1Config env opts p t).1 = .ok c) (hp : p.NoStream) :
    Overridable env opts p t c := by
  intro acqname nfs beams hbeams hdirs
  constructor
  · obtain ⟨c₁, pattern, t', hrun, -, rfl⟩ := l1Config_eq_ok.1 h
    rw [run'_readConfig] at hrun
    obtain ⟨⟨⟨c₀, bonsai⟩, R⟩, hcommon, hrun⟩ := bind_eq_ok hrun
    rw [run_readStream_noStream hopts hp, ok_bind] at hrun
    have hlayout : c₁.layout = c₀.layout := by
      rw [(finishConfig_ok hrun).1, layout_derive, layout_setStream]
    obtain ⟨devname, acqname', beams', hstream, hgiven⟩ := run_readStream_withAcq opts p acqname nfs beams c₀ R
    have hbeams' : ∀ b ∈ beams', b ∈ c₀.beamIds := by
      intro b hb
      have hids : c₁.beamIds = c₀.beamIds := congrArg Layout.beamIds hlayout
      rcases hgiven with ⟨-, rfl⟩ | ⟨-, -, -, rfl⟩
      · cases hb
      · rw [← hids]
        exact hbeams b hb
    have hfin : finishConfig env bonsai p R (c₀.setStream devname acqname' beams') =
        .ok (c₁.setStream devname acqname' beams') := finishConfig_setStream hrun hbeams'
    have hread : (readConfig env (opts.withAcq acqname nfs beams) p).run' [] =
        .ok (c₁.setStream devname acqname' beams') := by
      rw [run'_readConfig]
      show ((readCommon env opts p).run [] >>= _) = _
      rw [hcommon, ok_bind, hstream, ok_bind]
      exact hfin
    have hpass : ∃ pattern' t'', Prog.solo Posix.perform (makeAcqdirs (c₁.setStream devname acqname' beams')) t =
        (.ok pattern', t'') := by
      rcases hgiven with ⟨-, rfl⟩ | ⟨hname, rfl, rfl, rfl⟩
      · refine ⟨[], t, ?_⟩
        unfold makeAcqdirs acqnameToFilenamePattern
        rw [if_pos (.inr rfl)]
        rfl
      · exact hdirs.resolve_left hname
    obtain ⟨pattern', t'', hpass⟩ := hpass
    exact ⟨_, l1Config_eq_ok.2 ⟨_, pattern', t'', hread, hpass, rfl⟩⟩
  · rw [unusedKeys_of_readStream (fun c R => ⟨_, run_readStream_noStream hopts hp c R⟩),
      unusedKeys_of_readStream (fun c R => ?_)]
    · rfl
    · obtain ⟨_, _, _, hstream, -⟩ := run_readStream_withAcq opts p acqname nfs beams c R
      exact ⟨_, hstream⟩

theorem fflag_derive (env : Env) (bonsai : Option BonsaiConfig) (c : L1Config) :
    (deriveL1b bonsai (deriveParams env c)).fflag = c.fflag := by
  obtain ⟨l1bPipeCapacity, h⟩ := deriveL1b_eq bonsai (deriveParams env c)
  rw [h]
  rfl

theorem used_of_finishConfig {env : Env} {bonsai : Option BonsaiConfig} {p : Paramfile} {R : List String}
    {c c₁ : L1Config} (hflag : c.fflag = false) (h : finishConfig env bonsai p R c = .ok c₁) :
    p.checkForUnusedParams R = true := by
  by_contra hunused
  unfold finishConfig at h
  obtain ⟨_, -, h⟩ := bind_eq_ok h
  simp only at h
  split at h
  · obtain ⟨_, hwarnings, -⟩ := bind_eq_ok h
    unfold L1Config.haveWarnings at hwarnings
    rw [fflag_derive, hflag] at hwarnings
    cases hwarnings
  · rename_i hno
    apply hno
    unfold hasWarnings
    rw [Bool.eq_false_iff.2 hunused]
    rfl

/-- **A file with a parameter about streaming**: with `-a` it is not read. -/
theorem noStream_of_overridable {env : Env} {opts : Options} {p : Paramfile} {t : Tree} {c : L1Config}
    (hforce : opts.force = false) (h : Overridable env opts p t c) : p.NoStream := by
  obtain ⟨⟨c', hc'⟩, -⟩ := h "none".toList false [] (fun b hb => nomatch hb) (.inl rfl)
  obtain ⟨c₁, _, _, hrun, -⟩ := l1Config_eq_ok.1 hc'
  rw [run'_readConfig] at hrun
  obtain ⟨⟨⟨c₀, bonsai⟩, R⟩, hcommon, hrun⟩ := bind_eq_ok hrun
  obtain ⟨devname, acqname, beams, hstream, -⟩ :=
    run_readStream_withAcq opts p "none".toList false [] c₀ R
  rw [hstream, ok_bind] at hrun
  obtain ⟨hflag, hR⟩ := asks_readCommon env (opts.withAcq "none".toList false []) p [] _ hcommon
  have hforced : (c₀.setStream devname acqname beams).fflag = false := hflag.trans hforce
  have hused := used_of_finishConfig hforced hrun
  intro k hk
  by_contra hne
  obtain ⟨n, hn⟩ := Option.ne_none_iff_exists'.1 hne
  have hmem : k ∈ p.nodes.map (·.1) := by
    obtain ⟨kv, hkv, hkey⟩ := List.lookup_isSome_iff.1 (Option.isSome_iff_exists.2 ⟨n, hn⟩)
    rw [eq_of_beq hkey]
    exact List.mem_map_of_mem hkv
  rcases hR k (checkForUnusedParams_iff.1 hused k hmem) with h | h
  · cases h
  · exact h hk

/-- **An acquisition may be given on the command line if and only if the file says nothing about one**, for a file that
is accepted without. -/
theorem overridable_iff {env : Env} {opts : Options} {p : Paramfile} {t : Tree} {c : L1Config} (hopts : opts.acq = none)
    (hforce : opts.force = false) (h : (l1Config env opts p t).1 = .ok c) : Overridable env opts p t c ↔ p.NoStream :=
  ⟨noStream_of_overridable hforce, overridable_of_noStream hopts h⟩

theorem overridable_oneBeam : ∃ c, (l1Config plainEnv toyOptions oneBeam localDisk).1 = .ok c ∧
    (Overridable plainEnv toyOptions oneBeam localDisk c ↔ oneBeam.NoStream) := by
  obtain ⟨c, hc⟩ := Option.isSome_iff_exists.1
    (by decide +kernel : ((l1Config plainEnv toyOptions oneBeam localDisk).1.toOption).isSome = true)
  have hc := toOption_eq_some.1 hc
  exact ⟨c, hc, overridable_iff rfl rfl hc⟩

/-- **The default, written out**: `stream_devname: ssd` in the file. -/
theorem not_overridable_ssd : ¬ ∀ (env : Env) (opts : Options) (p : Paramfile) (t : Tree) (c : L1Config),
    opts.acq = none → opts.force = false → (l1Config env opts p t).1 = .ok c → Overridable env opts p t c := by
  intro hall
  let p := oneBeam.extend [("stream_devname", text "ssd".toList)]
  obtain ⟨c, hc⟩ := Option.isSome_iff_exists.1
    (by decide +kernel : ((l1Config plainEnv toyOptions p localDisk).1.toOption).isSome = true)
  have hover := hall plainEnv toyOptions p localDisk c rfl rfl (toOption_eq_some.1 hc)
  have hno := noStream_of_overridable rfl hover "stream_devname" (by decide)
  exact absurd hno (by decide +kernel)

end Config
end FrbL1
