import FrbL1.AcqInventory
import FrbL1.AcqPlaces
import FrbL1.Fallible
/-!
# InventoryRuns — the runs of an inventory

What the writers write, for any results of their calls: the runs of a beam (`BeamDir.runs`), of an acquisition and of
the inventory.  The name of a run tells the acquisition, the beam and the part (`runName_inj`), also where the name of
an acquisition looks like that of a run: numbers are read from the end.  And `is_nonempty` says whether there are runs
at all.
-/
namespace FrbL1
namespace Inventory

open Posix (Filename Path Errno)
open Posix.Tree (components)
open Fallible (mapM_ok)
open FileUtils (components_append)
open Conc (Prog)
open Conc.Prog (Runs NoThrow runs_bind_ok runs_collect noThrow_bind noThrow_tryCatch noThrow_collect ok_of_runs)

/-! ## Names -/

/-- **The name of a run tells** the acquisition, the beam and the part. -/
theorem runName_inj {b b' : BeamDir} {nparts nparts' : Int} {i i' : Nat}
    (h : b.runName nparts i = b'.runName nparts' i') :
    b.parentBasename = b'.parentBasename ∧ b.beamId = b'.beamId ∧ (1 < nparts → i = i') := by
  have hbeam : ∀ (s : List Char) (k : Nat), s ++ "_beam".toList ++ decimal k = (s ++ "_bea".toList) ++ 'm' :: decimal k :=
    fun s k => by simp
  have hpart : ∀ (s : List Char) (k : Nat), s ++ ("_part".toList ++ decimal k) = (s ++ "_par".toList) ++ 't' :: decimal k :=
    fun s k => by simp
  unfold BeamDir.runName at h
  by_cases hn : 1 < nparts
  · by_cases hn' : 1 < nparts'
    · rw [if_pos hn, if_pos hn', hpart, hpart] at h
      obtain ⟨h, -, hi⟩ := Digits.cut rfl rfl h
      rw [List.append_cancel_right_eq, hbeam, hbeam] at h
      obtain ⟨h, -, hid⟩ := Digits.cut rfl rfl h
      exact ⟨List.append_cancel_right h, hid, fun _ => hi⟩
    · rw [if_pos hn, if_neg hn', hpart, List.append_nil, hbeam b'.parentBasename] at h
      obtain ⟨-, hmt, -⟩ := Digits.cut rfl rfl h
      exact absurd hmt (by decide)
  · by_cases hn' : 1 < nparts'
    · rw [if_neg hn, if_pos hn', hpart, List.append_nil, hbeam b.parentBasename] at h
      obtain ⟨-, hmt, -⟩ := Digits.cut rfl rfl h
      exact absurd hmt (by decide)
    · rw [if_neg hn, if_neg hn', List.append_nil, List.append_nil, hbeam, hbeam] at h
      obtain ⟨h, -, hid⟩ := Digits.cut rfl rfl h
      exact ⟨List.append_cancel_right h, hid, fun h1 => absurd h1 hn⟩

/-! ## What is read -/

structure BeamDir.Sound (ad : AcqDir) (beamId : Nat) (b : BeamDir) : Prop where
  beamId : b.beamId = beamId
  parent : b.parentBasename = ad.acqdirBasename
  files  : 0 < b.nfiles
  place  : ad.acqdirAbspath <+: b.beamdirAbspath

structure AcqDir.Sound (ad : AcqDir) : Prop where
  nodup : (ad.beamdirHash.map (·.1)).Nodup
  beams : ∀ x ∈ ad.beamdirHash, x.2.Sound ad x.1

structure AcqInventory.Sound (toplevelAbspath : Filename) (a : AcqInventory) : Prop where
  nodup : (a.acqdirHash.map (·.1)).Nodup
  acqs  : ∀ x ∈ a.acqdirHash, x.2.Sound ∧ x.2.acqdirBasename = x.1 ∧ '/' ∉ x.1
  place : ∀ x ∈ a.acqdirHash, x.2.acqdirAbspath = join toplevelAbspath x.1

theorem basename_join {dirname name : Filename} (h : '/' ∉ name) : basename (join dirname name) = name := by
  have hall : ∀ c ∈ name.reverse, (decide (c ≠ '/')) = true := fun c hc =>
    decide_eq_true (fun hslash : c = '/' => h (hslash ▸ List.mem_reverse.1 hc))
  unfold basename join
  rw [List.reverse_append, List.reverse_cons, List.append_assoc, List.takeWhile_append_of_pos hall]
  simp

theorem beamdir_ok {parentAbspath name : Filename} {found : BeamFound} {bd : BeamDir}
    (h : beamdir parentAbspath name found = .ok bd) :
    matchBeam name = some bd.beamId ∧ bd.parentBasename = basename parentAbspath ∧
      bd.beamdirAbspath = join parentAbspath name := by
  unfold beamdir at h
  split at h
  · cases h
  · rename_i beamId hm
    refine hm ▸ ?_
    dsimp only at h
    split at h
    · cases h
    · split at h
      · cases h
      · split at h
        · split at h
          · cases h
          · split at h
            · cases h
            · split at h <;> cases h <;> exact ⟨rfl, rfl, rfl⟩
        · cases h
          exact ⟨rfl, rfl, rfl⟩

theorem add_sound {ad : AcqDir} {bd : BeamDir} {beamId : Nat} (hs : ad.Sound)
    (hnew : beamId ∉ ad.beamdirHash.map (·.1)) (hbd : bd.Sound ad beamId) : (ad.add beamId bd).Sound := by
  constructor
  · show ((ad.beamdirHash ++ [(beamId, bd)]).map (·.1)).Nodup
    rw [List.map_append, List.nodup_append_comm]
    exact List.nodup_cons.2 ⟨hnew, hs.nodup⟩
  · intro x hx
    rcases List.mem_append.1 hx with hx | hx
    · exact ⟨(hs.beams x hx).beamId, (hs.beams x hx).parent, (hs.beams x hx).files, (hs.beams x hx).place⟩
    · obtain rfl := List.mem_singleton.1 hx
      exact ⟨hbd.beamId, hbd.parent, hbd.files, hbd.place⟩

theorem addBeamdirs_sound : ∀ {l : List (Filename × Option BeamFound)} {ad ad' : AcqDir}, ad.Sound →
    basename ad.acqdirAbspath = ad.acqdirBasename → addBeamdirs ad l = .ok ad' →
    ad'.Sound ∧ ad'.acqdirBasename = ad.acqdirBasename ∧ ad'.acqdirAbspath = ad.acqdirAbspath
  | [], ad, ad', hs, _, h => by
    cases h
    exact ⟨hs, rfl, rfl⟩
  | (name, none) :: rest, ad, ad', hs, hbase, h => addBeamdirs_sound (l := rest) hs hbase h
  | (name, some found) :: rest, ad, ad', hs, hbase, h => by
    unfold addBeamdirs at h
    split at h
    · exact addBeamdirs_sound hs hbase h
    · rename_i beamId hm
      dsimp only at h
      split at h
      · cases h
      · split at h
        · cases h
        · rename_i hfresh
          split at h
          · cases h
          · rename_i bd hbd
            obtain ⟨hid, hparent, hplace⟩ := beamdir_ok hbd
            obtain rfl : bd.beamId = beamId := Option.some.inj (hid.symm.trans hm)
            split at h
            · exact addBeamdirs_sound hs hbase h
            · rename_i hfiles
              have hnew : bd.beamId ∉ ad.beamdirHash.map (·.1) := fun hin => by
                obtain ⟨x, hx, hxid⟩ := List.mem_map.1 hin
                exact absurd (List.lookup_eq_none_iff.1 hfresh x hx) (by simp [hxid])
              have hadd := add_sound hs hnew ⟨rfl, hparent.trans hbase, Nat.pos_of_ne_zero hfiles,
                hplace ▸ List.prefix_append _ _⟩
              have hrest := addBeamdirs_sound hadd hbase h
              exact hrest

theorem spread_sound {ad : AcqDir} (h : ad.Sound) : ad.spread.Sound := by
  unfold AcqDir.spread
  split
  · constructor
    · simpa [Function.comp_def] using h.nodup
    · intro x hx
      obtain ⟨y, hy, rfl⟩ := List.mem_map.1 hx
      exact ⟨(h.beams y hy).beamId, (h.beams y hy).parent, (h.beams y hy).files, (h.beams y hy).place⟩
  · exact h

theorem acqdir_sound {parentAbspath name : Filename} {found : AcqFound} {ad : AcqDir} (hslash : '/' ∉ name)
    (h : acqdir parentAbspath name found = .ok ad) :
    ad.Sound ∧ ad.acqdirBasename = name ∧ ad.acqdirAbspath = join parentAbspath name := by
  unfold acqdir at h
  split at h
  · cases h
  · rename_i l _
    generalize hloop : addBeamdirs _ l.entries = r at h
    cases r with
    | error e => cases h
    | ok ad' =>
    cases h
    have hnone : AcqDir.Sound ⟨name, join parentAbspath name, [], false, 0⟩ := ⟨List.nodup_nil, fun x hx => nomatch hx⟩
    obtain ⟨hs, hname, habspath⟩ := addBeamdirs_sound hnone (basename_join hslash) hloop
    refine ⟨spread_sound hs, Eq.trans ?_ hname, Eq.trans ?_ habspath⟩ <;> unfold AcqDir.spread <;> split <;> rfl

theorem addAcqdirs_sound {toplevelAbspath : Filename} : ∀ {l : List (Filename × Option AcqFound)}
    {a a' : AcqInventory}, a.Sound toplevelAbspath → (∀ e ∈ l, '/' ∉ e.1) →
    (a.acqdirHash.map (·.1) ++ l.map (·.1)).Nodup → addAcqdirs toplevelAbspath a l = .ok a' → a'.Sound toplevelAbspath
  | [], a, a', hs, _, _, h => by
    cases h
    exact hs
  | (name, none) :: rest, a, a', hs, hslash, hnd, h =>
    addAcqdirs_sound (l := rest) hs (fun e he => hslash e (.tail _ he))
      (hnd.sublist (List.Sublist.append_left (List.sublist_cons_self _ _) _)) h
  | (name, some found) :: rest, a, a', hs, hslash, hnd, h => by
    have hslash' : ∀ e ∈ rest, '/' ∉ e.1 := fun e he => hslash e (.tail _ he)
    have hnd' := hnd.sublist (List.Sublist.append_left (List.sublist_cons_self _ _) _)
    unfold addAcqdirs at h
    split at h
    · cases h
    · rename_i ad had
      obtain ⟨had, hname, habspath⟩ := acqdir_sound (hslash _ (.head _)) had
      split at h
      · have hkeys : ((a.acqdirHash ++ [(name, ad)]).map (·.1) ++ rest.map (·.1)).Nodup := by simpa using hnd
        have hadd : AcqInventory.Sound toplevelAbspath ⟨a.acqdirHash ++ [(name, ad)]⟩ := by
          refine ⟨(List.nodup_append.1 hkeys).1, fun x hx => ?_, fun x hx => ?_⟩
          · rcases List.mem_append.1 hx with hx | hx
            · exact hs.acqs x hx
            · obtain rfl := List.mem_singleton.1 hx
              exact ⟨had, hname, hslash _ (.head _)⟩
          · rcases List.mem_append.1 hx with hx | hx
            · exact hs.place x hx
            · obtain rfl := List.mem_singleton.1 hx
              exact habspath
        exact addAcqdirs_sound hadd hslash' hkeys h
      · exact addAcqdirs_sound hs hslash' hnd' h

theorem acqInventory_sound {toplevelAbspath : Filename} {found : ToplevelFound} {a : AcqInventory}
    (h : acqInventory toplevelAbspath found = .ok a) : a.Sound toplevelAbspath := by
  unfold acqInventory at h
  split at h
  · cases h
  · rename_i l _
    have hnone : AcqInventory.Sound toplevelAbspath ⟨[]⟩ :=
      ⟨List.nodup_nil, fun x hx => (nomatch hx), fun x hx => (nomatch hx)⟩
    exact addAcqdirs_sound hnone l.slash l.nodup h

/-! ## What is written -/

def Op.written {Stream : Type} : Op Stream → Option Path
  | .jsonWrite p _ => some p
  | _              => none

section
variable {Stream : Type} {A : (op : Op Stream) → op.Result → Prop}

theorem runs_ofExcept {α : Type} {x r : Except Exn α} {l : List (Op Stream)} (h : Runs A (ofExcept x) r l) :
    r = x ∧ l = [] := by
  cases x with
  | ok a => exact h
  | error e => exact h

theorem runs_call {op : Op Stream} {r : op.Result} {l : List (Op Stream)} (h : Runs A (call op) r l) :
    A op r ∧ l = [op] := by
  obtain ⟨x, l', hx, rfl, h⟩ := h
  obtain ⟨rfl, rfl⟩ := runs_ofExcept h
  exact ⟨hx, rfl⟩

theorem only_ofExcept {α : Type} {S : Op Stream → Prop} : ∀ x : Except Exn α, Prog.Only S (ofExcept x)
  | .ok _    => trivial
  | .error _ => trivial

theorem only_call {S : Op Stream → Prop} {op : Op Stream} (h : S op) : Prog.Only S (call op) :=
  ⟨h, fun r => only_ofExcept r⟩

def Op.Silent (op : Op Stream) : Prop := op.written = none

theorem only_silent {op : Op Stream} (h : op.written = none) : Prog.Only Op.Silent (call op) := only_call h

theorem only_makedirs : ∀ p : Path, Prog.Only (@Op.Silent Stream) (makedirs p)
  | []     => only_silent rfl
  | n :: q => by
    refine Prog.only_bind (fun there => Prog.only_bind (fun _ => only_silent rfl) ?_) (only_silent rfl)
    split
    · trivial
    · refine Prog.only_tryCatch (fun e => ?_) (only_makedirs q)
      split <;> trivial

theorem only_xmakedirs (p : Path) : Prog.Only (@Op.Silent Stream) (xmakedirs p) := by
  refine Prog.only_tryCatch (fun e => ?_) (only_makedirs p)
  split
  · refine Prog.only_bind (fun isdir => ?_) (only_silent rfl)
    cases isdir <;> trivial
  · trivial

theorem only_writeRunlist (p : Path) (runList : List (List Char × Filename)) :
    Prog.Only (@Op.Silent Stream) (writeRunlist p runList) := by
  unfold writeRunlist
  split
  · trivial
  · exact Prog.only_bind (fun _ => only_silent rfl) (only_silent rfl)

theorem filterMap_written {α : Type} {p : Sys Stream α} (hp : Prog.Only Op.Silent p)
    {r : Except Exn α} {l : List (Op Stream)} (h : Runs A p r l) : l.filterMap Op.written = [] :=
  List.filterMap_eq_nil_iff.2 (Prog.mem_of_runs hp h)

end

variable (R : Rounding) (o : Options)

def BeamDir.runs (b : BeamDir) : List (List Char × Filename) :=
  match b.nparts R o with
  | .ok nparts => (List.range nparts.toNat).map (fun i => (b.runName nparts i, b.jsonBasename nparts i))
  | .error _   => []

def AcqDir.runs (ad : AcqDir) : List (List Char × Filename) := ad.sorted.flatMap (fun x => x.2.runs R o)

def AcqInventory.runs (a : AcqInventory) : List (List Char × Filename) :=
  a.sorted.flatMap (fun x => (x.2.runs R o).map (fun r => (r.1, join x.2.acqdirBasename r.2)))

section
variable {R o} {Stream : Type} {A : (op : Op Stream) → op.Result → Prop}

theorem runs_writePart {b : BeamDir} {jsonDir : Path} {nparts : Int} {i : Nat} {x : List Char × Filename}
    {l : List (Op Stream)} (h : Runs A (b.writePart o jsonDir nparts i) (.ok x) l) :
    x = (b.runName nparts i, b.jsonBasename nparts i) ∧
      l.filterMap Op.written = [b.jsonBasename nparts i :: jsonDir] := by
  obtain ⟨filenames, l₁, l₂, h₁, h₂, rfl⟩ := runs_bind_ok h
  obtain ⟨-, rfl⟩ := runs_ofExcept h₁
  obtain ⟨stream, l₃, l₄, h₃, h₄, rfl⟩ := runs_bind_ok h₂
  obtain ⟨-, rfl⟩ := runs_call h₃
  obtain ⟨_, l₅, l₆, h₅, ⟨hret, rfl⟩, rfl⟩ := runs_bind_ok h₄
  obtain ⟨-, rfl⟩ := runs_call h₅
  cases hret
  exact ⟨rfl, rfl⟩

theorem runs_beam {b : BeamDir} {jsonDir : Path} {x : List (List Char × Filename)} {l : List (Op Stream)}
    (h : Runs A (b.writeJsonFiles R o jsonDir) (.ok x) l) :
    (∃ nparts, b.nparts R o = .ok nparts) ∧ x = b.runs R o ∧
      l.filterMap Op.written = (b.runs R o).map (fun r => r.2 :: jsonDir) := by
  obtain ⟨nparts, l₁, l₂, h₁, h₂, rfl⟩ := runs_bind_ok h
  obtain ⟨hn, rfl⟩ := runs_ofExcept h₁
  obtain ⟨-, rfl, hw⟩ := runs_collect (P := fun _ => True) (g := fun i => (b.runName nparts i, b.jsonBasename nparts i))
    (w := fun i => [b.jsonBasename nparts i :: jsonDir]) (fun i x l hx => ⟨trivial, runs_writePart hx⟩) h₂
  refine ⟨⟨nparts, hn.symm⟩, ?_, ?_⟩
  · simp [BeamDir.runs, ← hn]
  · rw [List.nil_append, hw, ← List.map_eq_flatMap]
    simp [BeamDir.runs, ← hn]

theorem runs_acq {ad : AcqDir} {jsonDir : Path} {x : List (List Char × Filename)} {l : List (Op Stream)}
    (h : Runs A (ad.writeJsonFiles R o jsonDir) (.ok x) l) :
    (∀ y ∈ ad.sorted, ∃ nparts, y.2.nparts R o = .ok nparts) ∧ x = ad.runs R o ∧
      l.filterMap Op.written = (ad.runs R o).map (fun r => r.2 :: jsonDir) := by
  obtain ⟨_, l₁, l₂, h₁, h₂, rfl⟩ := runs_bind_ok h
  obtain ⟨runlists, l₃, l₄, h₃, h₄, rfl⟩ := runs_bind_ok h₂
  obtain ⟨_, l₅, l₆, h₅, ⟨hret, rfl⟩, rfl⟩ := runs_bind_ok h₄
  cases hret
  obtain ⟨hok, rfl, hw⟩ := runs_collect (fun y x l hx => runs_beam hx) h₃
  refine ⟨hok, by rw [AcqDir.runs, List.flatMap_def], ?_⟩
  simp only [List.filterMap_append, filterMap_written (only_xmakedirs _) h₁,
    filterMap_written (only_writeRunlist _ _) h₅, hw, List.nil_append, List.append_nil]
  simp [AcqDir.runs, List.map_flatMap]

theorem runs_master {a : AcqInventory} {jsonDir : Path} {x : List (List Char × Filename)} {l : List (Op Stream)}
    (h : Runs A (a.masterRunList R o jsonDir) (.ok x) l) :
    (∀ y ∈ a.sorted, ∀ z ∈ y.2.sorted, ∃ nparts, z.2.nparts R o = .ok nparts) ∧ x = a.runs R o ∧
      l.filterMap Op.written = a.sorted.flatMap (fun y => (y.2.runs R o).map (fun r => r.2 :: y.1 :: jsonDir)) := by
  obtain ⟨runLists, l₁, l₂, h₁, ⟨hret, rfl⟩, rfl⟩ := runs_bind_ok h
  cases hret
  obtain ⟨hok, rfl, hw⟩ := runs_collect (P := fun y : Filename × AcqDir => ∀ z ∈ y.2.sorted, ∃ nparts, z.2.nparts R o = .ok nparts)
    (g := fun y => (y.2.runs R o).map (fun r => (r.1, join y.2.acqdirBasename r.2)))
    (w := fun y => (y.2.runs R o).map (fun r => r.2 :: y.1 :: jsonDir)) (fun y x l hx => by
      obtain ⟨runList, l₃, l₄, h₃, ⟨hret, rfl⟩, rfl⟩ := runs_bind_ok hx
      cases hret
      obtain ⟨hok, rfl, hw⟩ := runs_acq h₃
      exact ⟨hok, rfl, by rw [List.append_nil, hw]⟩) h₁
  exact ⟨hok, by rw [AcqInventory.runs, List.flatMap_def], by rw [List.append_nil, hw]⟩

end

/-! ## Whether there are runs -/

section
variable {R o}

theorem mem_runs {b : BeamDir} {r : List Char × Filename} :
    r ∈ b.runs R o ↔ ∃ nparts, b.nparts R o = .ok nparts ∧ ∃ i < nparts.toNat,
      r = (b.runName nparts i, b.jsonBasename nparts i) := by
  unfold BeamDir.runs
  cases b.nparts R o with
  | error e => simp
  | ok nparts =>
    rw [List.mem_map]
    constructor
    · rintro ⟨i, hi, rfl⟩
      exact ⟨nparts, rfl, i, List.mem_range.1 hi, rfl⟩
    · rintro ⟨_, hn, i, hi, rfl⟩
      cases hn
      exact ⟨i, List.mem_range.2 hi, rfl⟩

/-- A beam with files is written in at least one part, or is in progress and too short for one. -/
theorem isNonempty_beam {b : BeamDir} (hfiles : 0 < b.nfiles) {nparts : Int} (hn : b.nparts R o = .ok nparts) :
    b.isNonempty o = true ↔ b.runs R o ≠ [] := by
  have hlen : b.runs R o ≠ [] ↔ 0 < nparts := by
    rw [← List.length_pos_iff, BeamDir.runs, hn]
    simp
  have hpart : 0 < o.nchunksPerPart := by
    have := o.nonneg
    have := o.longer
    omega
  rw [hlen]
  unfold BeamDir.nparts at hn
  unfold BeamDir.isNonempty
  by_cases hp : b.inProgress = true
  · rw [if_pos hp] at hn ⊢
    cases hn
    rw [decide_eq_true_iff, ← Int.add_one_le_iff (a := 0), Int.le_ediv_iff_mul_le hpart, zero_add, one_mul]
  · rw [if_neg hp] at hn ⊢
    cases hq : R b.nfiles o.nchunksPerPart with
    | error e => rw [hq] at hn; cases hn
    | ok q =>
      rw [hq] at hn
      cases hn
      rw [decide_eq_true_iff]
      exact iff_of_true hfiles (lt_of_lt_of_le Int.one_pos (le_max_right q 1))

theorem mem_sorted_acq {ad : AcqDir} {x : Nat × BeamDir} : x ∈ ad.sorted ↔ x ∈ ad.beamdirHash :=
  List.mem_insertionSort _

theorem mem_sorted {a : AcqInventory} {x : Filename × AcqDir} : x ∈ a.sorted ↔ x ∈ a.acqdirHash :=
  List.mem_insertionSort _

/-- **`is_nonempty` tells whether there are runs.** -/
theorem isNonempty_iff {toplevelAbspath : Filename} {a : AcqInventory} (hs : a.Sound toplevelAbspath)
    (hok : ∀ y ∈ a.sorted, ∀ z ∈ y.2.sorted, ∃ nparts, z.2.nparts R o = .ok nparts) :
    a.isNonempty o = true ↔ a.runs R o ≠ [] := by
  have hbeam : ∀ y ∈ a.acqdirHash, ∀ z ∈ y.2.beamdirHash, (z.2.isNonempty o = true ↔ z.2.runs R o ≠ []) := by
    intro y hy z hz
    obtain ⟨nparts, hn⟩ := hok y (mem_sorted.2 hy) z (mem_sorted_acq.2 hz)
    exact isNonempty_beam ((hs.acqs y hy).1.beams z hz).files hn
  have hruns : a.runs R o ≠ [] ↔ ∃ y ∈ a.acqdirHash, ∃ z ∈ y.2.beamdirHash, z.2.runs R o ≠ [] := by
    simp [AcqInventory.runs, AcqDir.runs, mem_sorted, mem_sorted_acq]
  rw [hruns]
  unfold AcqInventory.isNonempty AcqDir.isNonempty
  simp only [List.any_eq_true]
  constructor
  · rintro ⟨y, hy, z, hz, h⟩
    exact ⟨y, hy, z, hz, (hbeam y hy z hz).1 h⟩
  · rintro ⟨y, hy, z, hz, h⟩
    exact ⟨y, hy, z, hz, (hbeam y hy z hz).2 h⟩

/-! ## Each run once -/

theorem nodup_flatMap_of_key {β γ κ : Type} {xs : List β} {f : β → List γ} {k : β → κ} (hnd : (xs.map k).Nodup)
    (hf : ∀ x ∈ xs, (f x).Nodup) (hkey : ∀ x ∈ xs, ∀ y ∈ xs, ∀ c, c ∈ f x → c ∈ f y → k x = k y) :
    (xs.flatMap f).Nodup := by
  rw [List.nodup_flatMap]
  refine ⟨hf, ?_⟩
  have hpair : xs.Pairwise (fun x y => k x ≠ k y) := List.pairwise_map.1 hnd
  refine hpair.imp_of_mem (fun hx hy hne => ?_)
  intro c hcx hcy
  exact hne (hkey _ hx _ hy c hcx hcy)

theorem nodup_names_beam (b : BeamDir) : ((b.runs R o).map (·.1)).Nodup := by
  unfold BeamDir.runs
  cases b.nparts R o with
  | error e => exact List.nodup_nil
  | ok nparts =>
    rw [List.map_map]
    refine List.Nodup.map_on (fun i hi j hj h => ?_) List.nodup_range
    by_cases hn : 1 < nparts
    · exact (runName_inj h).2.2 hn
    · have hi' := List.mem_range.1 hi
      have hj' := List.mem_range.1 hj
      omega

theorem nodup_names_acq {ad : AcqDir} (hs : ad.Sound) : ((ad.runs R o).map (·.1)).Nodup := by
  unfold AcqDir.runs
  rw [List.map_flatMap]
  apply nodup_flatMap_of_key (k := (·.1))
  · exact ((List.perm_insertionSort _ _).map _).nodup_iff.2 hs.nodup
  · intro x _
    exact nodup_names_beam x.2
  · intro x hx y hy c hcx hcy
    obtain ⟨r, hr, rfl⟩ := List.mem_map.1 hcx
    obtain ⟨r', hr', h⟩ := List.mem_map.1 hcy
    obtain ⟨n, -, i, -, rfl⟩ := mem_runs.1 hr
    obtain ⟨n', -, i', -, rfl⟩ := mem_runs.1 hr'
    rw [← (hs.beams x (mem_sorted_acq.1 hx)).beamId, ← (hs.beams y (mem_sorted_acq.1 hy)).beamId]
    exact (runName_inj h).2.1.symm

theorem mem_runs_acq {ad : AcqDir} (hs : ad.Sound) {r : List Char × Filename} (h : r ∈ ad.runs R o) :
    ∃ b : BeamDir, ∃ n i, b.parentBasename = ad.acqdirBasename ∧ r = (b.runName n i, b.jsonBasename n i) := by
  obtain ⟨x, hx, hr⟩ := List.mem_flatMap.1 h
  obtain ⟨n, -, i, -, rfl⟩ := mem_runs.1 hr
  exact ⟨x.2, n, i, (hs.beams x (mem_sorted_acq.1 hx)).parent, rfl⟩

theorem nodup_names {toplevelAbspath : Filename} {a : AcqInventory} (hs : a.Sound toplevelAbspath) :
    ((a.runs R o).map (·.1)).Nodup := by
  unfold AcqInventory.runs
  rw [List.map_flatMap]
  apply nodup_flatMap_of_key (k := (·.1))
  · exact ((List.perm_insertionSort _ _).map _).nodup_iff.2 hs.nodup
  · intro x hx
    rw [List.map_map]
    exact nodup_names_acq (hs.acqs x (mem_sorted.1 hx)).1
  · intro x hx y hy c hcx hcy
    obtain ⟨hsx, hnx, -⟩ := hs.acqs x (mem_sorted.1 hx)
    obtain ⟨hsy, hny, -⟩ := hs.acqs y (mem_sorted.1 hy)
    rw [List.map_map] at hcx hcy
    obtain ⟨r, hr, rfl⟩ := List.mem_map.1 hcx
    obtain ⟨r', hr', h⟩ := List.mem_map.1 hcy
    obtain ⟨b, n, i, hb, rfl⟩ := mem_runs_acq hsx hr
    obtain ⟨b', n', i', hb', rfl⟩ := mem_runs_acq hsy hr'
    rw [← hnx, ← hny, ← hb, ← hb']
    exact (runName_inj h).1.symm

theorem mem_runs_inventory {toplevelAbspath : Filename} {a : AcqInventory} (hs : a.Sound toplevelAbspath)
    {r : List Char × Filename} (h : r ∈ a.runs R o) :
    ∃ x ∈ a.acqdirHash, r.2 = join x.1 (r.1 ++ ".json".toList) ∧ '/' ∉ x.1 ∧ '/' ∉ r.1 := by
  obtain ⟨x, hx, hr⟩ := List.mem_flatMap.1 h
  obtain ⟨hsx, hname, hslash⟩ := hs.acqs x (mem_sorted.1 hx)
  obtain ⟨r', hr', rfl⟩ := List.mem_map.1 hr
  obtain ⟨b, n, i, hb, rfl⟩ := mem_runs_acq hsx hr'
  refine ⟨x, mem_sorted.1 hx, by rw [← hname]; rfl, hslash, ?_⟩
  have hdecimal : ∀ k : Nat, '/' ∉ decimal k := Digits.notMem (by decide)
  have hparent : '/' ∉ b.parentBasename := by rwa [hb, hname]
  simp only [BeamDir.runName, List.mem_append, not_or]
  refine ⟨⟨⟨hparent, by decide⟩, hdecimal _⟩, ?_⟩
  split
  · exact fun hin => (List.mem_append.1 hin).elim (by decide) (hdecimal i)
  · exact fun hin => nomatch hin

/-! ## Nothing fails but the calls -/

theorem nchunksPerPart_pos : 0 < o.nchunksPerPart := lt_of_le_of_lt o.nonneg o.longer

theorem nparts_exactly_ok (o : Options) (b : BeamDir) : ∃ n, b.nparts exactly o = .ok n := by
  unfold BeamDir.nparts
  split <;> exact ⟨_, rfl⟩

theorem range_bounds {b : BeamDir} {n : Int} (hn : b.nparts exactly o = .ok n) {i : Nat} (hi : i < n.toNat) :
    0 ≤ (b.range o n i).1 ∧ (b.range o n i).2 ≤ b.nfiles := by
  have hpos := nchunksPerPart_pos (o := o)
  have hin : (i : Int) + 1 ≤ n := by omega
  constructor
  · unfold BeamDir.range
    dsimp only
    split
    · have h1 : o.nchunksPerPart ≤ (i : Int) * o.nchunksPerPart := le_mul_of_one_le_left hpos.le (by omega)
      have := o.longer
      omega
    · exact Int.mul_nonneg (Int.natCast_nonneg i) hpos.le
  · unfold BeamDir.range
    dsimp only
    unfold BeamDir.nparts at hn
    by_cases hp : b.inProgress = true
    · rw [if_pos hp] at hn
      cases hn
      rw [if_neg (by simp [hp])]
      exact (Int.mul_le_mul_of_nonneg_right hin hpos.le).trans (Int.ediv_mul_le _ hpos.ne')
    · rw [if_neg hp] at hn
      have hmax : max ⌊((b.nfiles : ℚ) / o.nchunksPerPart + 1 / 2)⌋ 1 = n := Except.ok.inj hn
      by_cases hlast : (i : Int) = n - 1
      · rw [if_pos ⟨hlast, by simpa using hp⟩]
      · rw [if_neg (fun h => hlast h.1)]
        have hiq : (i : Int) + 1 ≤ ⌊((b.nfiles : ℚ) / o.nchunksPerPart + 1 / 2)⌋ - 1 := by omega
        have hfloor := Int.floor_le ((b.nfiles : ℚ) / o.nchunksPerPart + 1 / 2)
        have hle : ((i : ℚ) + 1) ≤ (b.nfiles : ℚ) / o.nchunksPerPart := by
          have hcast : ((i : ℚ) + 1) ≤ (⌊((b.nfiles : ℚ) / o.nchunksPerPart + 1 / 2)⌋ : ℚ) - 1 := by exact_mod_cast hiq
          linarith
        have hfiles := (le_div_iff₀ (by exact_mod_cast hpos)).1 hle
        exact_mod_cast hfiles

theorem dataFileBasename_ok {b : BeamDir} {i : Int} (h0 : 0 ≤ i) (hi : i < b.nfiles) : ∃ f, b.dataFileBasename i = .ok f := by
  have hlt : i.toNat < b.dataFileBasenames.length := by
    unfold BeamDir.nfiles at hi
    omega
  refine ⟨b.dataFileBasenames[i.toNat], ?_⟩
  simp [BeamDir.dataFileBasename, Int.not_lt.2 h0, List.getElem?_eq_getElem hlt]

/-- On the archivers the directories are where the script replaces the number of the archiver. -/
theorem dataDir_ok {b : BeamDir} (hplace : join o.toplevelDir "acq_data".toList <+: b.beamdirAbspath) (i : Int) :
    ∃ d, b.dataDir o i = .ok d := by
  unfold BeamDir.dataDir
  split
  · rename_i hnfs
    have hdir : o.toplevelDir = "/frb-archiver-1".toList := by
      have hdev : o.device = .nfs := of_decide_eq_true hnfs
      rw [Options.toplevelDir, hdev]
    have hprefix : "/frb-archiver-1/".toList <+: b.beamdirAbspath := by
      rw [hdir] at hplace
      exact List.IsPrefix.trans (by decide) hplace
    exact ⟨_, if_pos hprefix⟩
  · exact ⟨_, rfl⟩

theorem dataAbspathList_ok {b : BeamDir} (hplace : join o.toplevelDir "acq_data".toList <+: b.beamdirAbspath)
    {n : Int} (hn : b.nparts exactly o = .ok n) {i : Nat} (hi : i < n.toNat) :
    ∃ filenames, b.dataAbspathList o n i = .ok filenames := by
  obtain ⟨h0, h1⟩ := range_bounds hn hi
  unfold BeamDir.dataAbspathList
  generalize b.range o n i = x at h0 h1
  obtain ⟨i0, i1⟩ := x
  refine mapM_ok (fun k hk => ?_)
  obtain ⟨j, hj, rfl⟩ := List.mem_map.1 hk
  have hlt := List.mem_range.1 hj
  obtain ⟨d, hd⟩ := dataDir_ok hplace (i0 + (j : Nat))
  obtain ⟨f, hf⟩ := dataFileBasename_ok (b := b) (i := i0 + (j : Nat)) (by omega) (by omega)
  exact ⟨join d f, by rw [BeamDir.dataAbspath, hd, hf]; rfl⟩

def Succeeds {Stream : Type} (op : Op Stream) (r : op.Result) : Prop := ∃ a, r = .ok a

theorem noThrow_call {Stream : Type} (op : Op Stream) : NoThrow Succeeds (call op) := by
  rintro x ⟨a, rfl⟩
  exact True.intro

theorem noThrow_ofExcept {Stream α : Type} {x : Except Exn α} (h : ∃ a, x = .ok a) :
    NoThrow (@Succeeds Stream) (ofExcept x) := by
  obtain ⟨a, rfl⟩ := h
  exact True.intro

theorem noThrow_makedirs {Stream : Type} : ∀ p : Path, NoThrow (@Succeeds Stream) (makedirs p)
  | []     => noThrow_call _
  | n :: q => by
    refine noThrow_bind (fun there => noThrow_bind (fun _ => noThrow_call _) ?_) (noThrow_call _)
    split
    · exact True.intro
    · exact noThrow_tryCatch _ (noThrow_makedirs q)

theorem noThrow_writeRunlist {Stream : Type} (p : Path) (runList : List (List Char × Filename)) :
    NoThrow (@Succeeds Stream) (writeRunlist p runList) := by
  unfold writeRunlist
  split
  · exact True.intro
  · exact noThrow_bind (fun _ => noThrow_call _) (noThrow_call _)

theorem noThrow_beam {Stream : Type} {b : BeamDir} (hplace : join o.toplevelDir "acq_data".toList <+: b.beamdirAbspath)
    (jsonDir : Path) : NoThrow (@Succeeds Stream) (b.writeJsonFiles exactly o jsonDir) := by
  obtain ⟨n, hn⟩ := nparts_exactly_ok o b
  unfold BeamDir.writeJsonFiles
  rw [hn]
  refine noThrow_collect (fun i hi => ?_)
  apply noThrow_bind
  · intro filenames
    refine noThrow_bind (fun stream => noThrow_bind (fun _ => ?_) (noThrow_call _)) (noThrow_call _)
    exact True.intro
  · exact noThrow_ofExcept (dataAbspathList_ok hplace hn (List.mem_range.1 hi))

theorem noThrow_master {Stream : Type} {a : AcqInventory} (hs : a.Sound (join o.toplevelDir "acq_data".toList))
    (jsonDir : Path) : NoThrow (@Succeeds Stream) (a.masterRunList exactly o jsonDir) := by
  apply noThrow_bind
  · intro runLists
    exact True.intro
  · refine noThrow_collect (fun x hx => noThrow_bind (fun runList => ?_) ?_)
    · exact True.intro
    · apply noThrow_bind
      · intro _
        apply noThrow_bind
        · intro runlists
          refine noThrow_bind (fun _ => ?_) (noThrow_writeRunlist _ _)
          exact True.intro
        · refine noThrow_collect (fun y hy => noThrow_beam ?_ _)
          have hx' := mem_sorted.1 hx
          refine List.IsPrefix.trans ?_ ((hs.acqs x hx').1.beams y (mem_sorted_acq.1 hy)).place
          rw [hs.place x hx']
          exact List.prefix_append _ _
      · exact noThrow_tryCatch _ (noThrow_makedirs _)

end

/-! ## The master run list -/

theorem components_join {acqName f : Filename} (ha : '/' ∉ acqName) (hf : '/' ∉ f) :
    components (join acqName f) = [acqName, f] := by
  have hone : ∀ {g : Filename}, '/' ∉ g → components g = [g] := fun h => List.splitOn_eq_singleton h
  rw [join, components_append, hone ha, hone hf]
  rfl

/-- **`is_nonempty` tells whether the master run list has runs, and it has each run once**: with whatever results of
their calls the writers make the list, names and files of the runs differ, and the files of the list are those written.
And with the quotient taken exactly nothing but a call that fails keeps them from making it. -/
theorem master_run_list {found : ToplevelFound} {a : AcqInventory}
    (h : acqInventory (join o.toplevelDir "acq_data".toList) found = .ok a) :
    (∀ (Stream : Type) (A : (op : Op Stream) → op.Result → Prop) (jsonDir : Path)
      (masterRunList : List (List Char × Filename)) (ops : List (Op Stream)),
      Runs A (a.masterRunList R o jsonDir) (.ok masterRunList) ops →
        (a.isNonempty o = true ↔ masterRunList ≠ []) ∧
        (masterRunList.map (·.1)).Nodup ∧ (masterRunList.map (·.2)).Nodup ∧
        (∀ r ∈ masterRunList, ∃ acqName, r.2 = join acqName (r.1 ++ ".json".toList)) ∧
        ops.filterMap Op.written = masterRunList.map (fun r => (components r.2).reverse ++ jsonDir) ∧
        (ops.filterMap Op.written).Nodup) ∧
    ∀ (Stream : Type) (jsonDir : Path) (r : Except Exn (List (List Char × Filename))) (ops : List (Op Stream)),
      Runs Succeeds (a.masterRunList exactly o jsonDir) r ops → ∃ masterRunList, r = .ok masterRunList := by
  have hs := acqInventory_sound h
  constructor
  · intro Stream A jsonDir masterRunList ops hrun
    obtain ⟨hok, rfl, hw⟩ := runs_master hrun
    have hnames := nodup_names (R := R) (o := o) hs
    have hpath : ∀ r ∈ a.runs R o, ∃ x ∈ a.acqdirHash, r.2 = join x.1 (r.1 ++ ".json".toList) ∧
        components r.2 = [x.1, r.1 ++ ".json".toList] := by
      intro r hr
      obtain ⟨x, hx, hr2, hslash, hslash'⟩ := mem_runs_inventory hs hr
      have hfile : '/' ∉ r.1 ++ ".json".toList := fun hin => (List.mem_append.1 hin).elim hslash' (by decide)
      exact ⟨x, hx, hr2, by rw [hr2, components_join hslash hfile]⟩
    have htells : ∀ r ∈ a.runs R o, ∀ r' ∈ a.runs R o, components r.2 = components r'.2 → r = r' := by
      intro r hr r' hr' heq
      obtain ⟨x, -, -, hc⟩ := hpath r hr
      obtain ⟨x', -, -, hc'⟩ := hpath r' hr'
      rw [hc, hc'] at heq
      have hname : r.1 = r'.1 := List.append_cancel_right (List.cons.inj (List.cons.inj heq).2).1
      exact List.inj_on_of_nodup_map hnames hr hr' hname
    have hwritten : ops.filterMap Op.written = (a.runs R o).map (fun r => (components r.2).reverse ++ jsonDir) := by
      rw [hw, AcqInventory.runs, List.map_flatMap]
      refine List.flatMap_congr (fun y hy => ?_)
      rw [List.map_map]
      refine List.map_congr_left (fun r hr => ?_)
      obtain ⟨hsy, hname, hslash⟩ := hs.acqs y (mem_sorted.1 hy)
      have hmem : (r.1, join y.2.acqdirBasename r.2) ∈ a.runs R o :=
        List.mem_flatMap.2 ⟨y, hy, List.mem_map.2 ⟨r, hr, rfl⟩⟩
      obtain ⟨b, n, i, -, rfl⟩ := mem_runs_acq hsy hr
      obtain ⟨x, hx, hr2, -, hslash'⟩ := mem_runs_inventory hs hmem
      have hfile : '/' ∉ b.jsonBasename n i := fun hin => (List.mem_append.1 hin).elim hslash' (by decide)
      simp only [Function.comp_apply]
      rw [hname, components_join hslash hfile]
      rfl
    refine ⟨isNonempty_iff hs hok, hnames, ?_, fun r hr => ?_, hwritten, ?_⟩
    · exact hnames.of_map.map_on (fun r hr r' hr' heq => htells r hr r' hr' (congrArg components heq))
    · obtain ⟨x, -, hr2, -⟩ := hpath r hr
      exact ⟨x.1, hr2⟩
    · rw [hwritten]
      refine hnames.of_map.map_on (fun r hr r' hr' heq => htells r hr r' hr' ?_)
      exact List.reverse_inj.1 (List.append_cancel_right heq)
  · intro Stream jsonDir r ops hrun
    exact ok_of_runs (noThrow_master hs jsonDir) hrun

/-- Five files an hour old, and one that was just written; the name of the first acquisition looks like a run of the
second. -/
def someAcqs : ToplevelFound :=
  let files (n : Nat) : List Filename := (List.range n).map (fun i => "chunk_".toList ++ decimal i ++ ".msg".toList)
  let old (n : Nat) : BeamFound := ⟨.ok (files n), 4000, fun _ => .ok 400⟩
  let acq (name : Filename) (h : '/' ∉ name) (b : BeamFound) : AcqFound :=
    ⟨.ok ⟨[(name, some b)], by simpa using h, List.nodup_singleton _⟩⟩
  ⟨.ok ⟨[("x_beam1".toList, some (acq "beam_0002".toList (by decide) (old 5))),
    ("x".toList, some (acq "beam_0001".toList (by decide) (old 1))),
    ("y".toList, some (acq "beam_0001".toList (by decide) ⟨.ok (files 1), 4000, fun _ => .ok 3990⟩)),
    ("notes".toList, none)], by decide, by decide⟩⟩

def twoPerPart : Options := ⟨.ssd, 2, 1, by decide, by decide⟩

def someInventory : AcqInventory := (acqInventory "/local/acq_data".toList someAcqs).toOption.getD ⟨[]⟩

theorem someAcqs_ok : acqInventory "/local/acq_data".toList someAcqs = .ok someInventory := by
  have hread : (acqInventory "/local/acq_data".toList someAcqs).toOption.isSome = true := by decide +kernel
  unfold someInventory
  cases h : acqInventory "/local/acq_data".toList someAcqs with
  | ok a => rfl
  | error e =>
    rw [h] at hread
    cases hread

theorem master_run_list_acqs :
    ((someInventory.runs inDoubles twoPerPart).map (·.1) = ["x_beam1".toList, "x_beam1_beam2_part0".toList,
      "x_beam1_beam2_part1".toList, "x_beam1_beam2_part2".toList]) ∧
    someInventory.isNonempty twoPerPart = true ∧
    ∀ (r : Except Exn (List (List Char × Filename))) (ops : List (Op Unit)),
      Runs Succeeds (someInventory.masterRunList exactly twoPerPart ["acq_json".toList]) r ops →
        ∃ masterRunList, r = .ok masterRunList ∧ masterRunList ≠ [] ∧ (masterRunList.map (·.1)).Nodup := by
  have hnonempty : someInventory.isNonempty twoPerPart = true := by decide +kernel
  refine ⟨by decide +kernel, hnonempty, fun r ops hrun => ?_⟩
  have hall := master_run_list exactly twoPerPart someAcqs_ok
  obtain ⟨l, rfl⟩ := hall.2 _ _ r ops hrun
  obtain ⟨hiff, hnames, -⟩ := hall.1 _ _ _ _ _ hrun
  exact ⟨l, rfl, hiff.1 hnonempty, hnames⟩

end Inventory
end FrbL1
