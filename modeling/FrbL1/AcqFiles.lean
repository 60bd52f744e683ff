import FrbL1.AcqStart
import FrbL1.FilenamePattern
import FrbL1.ReplaceAll
/-!
# AcqFiles — the directories that are prepared, and those that are written to

`check_acqdir` prepares the acquisition's directory and one for each beam, under literal names.  The chunks go where
`format_filename` says, from the pattern that is returned, and the metadata where `acq_pattern_to_dir` and `replaceAll`
say.  These are the same directories unless the acquisition's name has a placeholder in it, or the number of a beam is
negative and short (`files_go_to_prepared`).  Whatever the name is, the metadata's directory is that of the pattern with
the stream's number filled in (`metadata_dir`).
-/
namespace FrbL1
namespace FileUtils

open Conc Conc.Prog
open Posix (Filename Path Kind Errno Tree Call)
open Posix.Tree
open Requests (replaceAll replaceStream replaceStream_eq replaceAll_stream fillStream fillStream_name fillStream_plain
  fillStream_slash not_infix_fillStream)
open Rpc (AssembledChunk)
open Template (cut_first cut_last)

/-! ## What a call leaves behind -/

section
variable {α β : Type}

def Adds (p : Sys α) : Prop := ∀ t, Grows (fun _ => True) t (solo Posix.perform p t).2

theorem adds_ret (a : α) : Adds (ret a : Sys α) := fun t => Grows.refl _ t

theorem adds_throw (e : List Char) : Adds (throw e : Sys α) := fun t => Grows.refl _ t

theorem adds_bind {p : Sys α} {f : α → Sys β} (hp : Adds p) (hf : ∀ a, Adds (f a)) : Adds (p >>= f) := fun t => by
  show Grows _ t (solo Posix.perform (p.bind f) t).2
  have hgrows := hp t
  rw [solo_bind]
  split
  · rename_i a u hu
    rw [hu] at hgrows
    exact hgrows.trans (hf a u)
  · rename_i e u hu
    rw [hu] at hgrows
    exact hgrows

theorem adds_stat (f : Filename) : Adds (stat f) := fun t => Grows.refl _ t

theorem adds_readdir (f : Filename) : Adds (readdir f) := fun t => Grows.refl _ t

theorem adds_mkdir (f : Filename) : Adds (mkdir f) := fun t => by
  show Grows _ t (t.mkdir f).2
  rcases t.mkdir_cases f with ⟨e, he⟩ | ⟨n, q, hq, -, -, -, hnone, hmk⟩
  · rw [he]
    exact Grows.refl _ t
  · rw [hmk]
    exact Grows.addDir t n q hq hnone trivial

theorem adds_fileExists (f : Filename) : Adds (fileExists f) :=
  adds_bind (adds_stat f) (fun r => by
    split
    · exact adds_ret _
    · exact adds_ret _
    · exact adds_throw _)

theorem adds_isDirectory (f : Filename) : Adds (isDirectory f) :=
  adds_bind (adds_stat f) (fun r => by
    split
    · exact adds_ret _
    · exact adds_throw _)

theorem adds_isEmptyDirectory (f : Filename) : Adds (isEmptyDirectory f) :=
  adds_bind (adds_readdir f) (fun r => by
    split
    · exact adds_ret _
    · exact adds_throw _)

theorem adds_makedir (f : Filename) (b : Bool) : Adds (makedir f b) :=
  adds_bind (adds_mkdir f) (fun r => by
    split
    · exact adds_ret _
    · split
      · exact adds_throw _
      · refine adds_bind (adds_stat f) (fun r => ?_)
        split
        · exact adds_throw _
        · exact adds_ret _
        · exact adds_throw _)

theorem adds_checkBeamdir (acqdir : Filename) (newAcq : Bool) (b : Int) : Adds (checkBeamdir acqdir newAcq b) := by
  refine adds_bind (adds_fileExists _) (fun r => ?_)
  split
  · exact adds_makedir _ _
  · refine adds_bind (adds_isDirectory _) (fun r => ?_)
    split
    · exact adds_throw _
    · split
      · refine adds_bind (adds_isEmptyDirectory _) (fun r => ?_)
        split
        · exact adds_throw _
        · exact adds_ret _
      · exact adds_ret _

theorem adds_checkBeamdirs (acqdir : Filename) (newAcq : Bool) : ∀ bs : List Int, Adds (checkBeamdirs acqdir newAcq bs)
  | []      => adds_ret _
  | b :: bs => adds_bind (adds_checkBeamdir acqdir newAcq b) (fun _ => adds_checkBeamdirs acqdir newAcq bs)

end

theorem stat_of_grows {S : Path → Prop} {t t' : Tree} (h : Grows S t t') {f : Filename} {k : Kind}
    (hk : t.stat f = .ok k) : t'.stat f = .ok k := by
  unfold Tree.stat at hk ⊢
  rw [h.fault]
  split at hk
  · cases hk
  · split at hk
    · cases hk
    · rename_i hf
      rw [if_neg hf]
      split at hk
      · cases hk
      · rename_i q hq
        split at hk
        · cases hk
        · rename_i k' hk'
          obtain rfl := Except.ok.inj hk
          simp only [h.walk _ _ _ hq, h.keeps q k' hk']

theorem stat_mkdir {t : Tree} {f : Filename} (h : (t.mkdir f).1 = .ok ()) : (t.mkdir f).2.stat f = .ok .dir := by
  rcases t.mkdir_cases f with ⟨e, he⟩ | ⟨n, q, hq, hfault, hf, hw, hnone, hmk⟩
  · rw [he] at h
    cases h
  · have hgrows : Grows (fun _ => True) t (t.addDir n q hq) := Grows.addDir t n q hq hnone trivial
    have hdir : (t.addDir n q hq).node (n :: q) = some .dir := by rw [node_addDir, if_pos rfl]
    have hwalk : (t.addDir n q hq).walk [] (components f) = .ok (n :: q) := by
      obtain ⟨m, hm⟩ := stripSlashes_append (components f)
      rw [hm, walk_append, hgrows.walk _ _ _ hw]
      exact walk_empties _ _ hdir m
    rw [hmk, stat_of_walk hf hwalk, hgrows.fault, hfault, hdir]

theorem solo_perform {c : Call} {t t' : Tree} {r : c.Result}
    (h : solo Posix.perform (Prog.perform c : Sys c.Result) t = (.ok r, t')) : Posix.perform c t = (r, t') := by
  obtain ⟨hr, ht⟩ := Prod.mk.inj h
  exact Prod.ext (Except.ok.inj hr) ht

theorem stat_makedir {t t' : Tree} {f : Filename} (h : solo Posix.perform (makedir f false) t = (.ok (), t')) :
    t'.stat f = .ok .dir := by
  obtain ⟨r, u, hr, hrest⟩ := solo_bind_ok h
  have hmk : t.mkdir f = (r, u) := solo_perform (c := .mkdir f) hr
  split at hrest
  · rename_i hok
    obtain ⟨-, rfl⟩ := Prod.mk.inj hrest
    have hdir := stat_mkdir (t := t) (f := f) (by rw [hmk])
    rwa [hmk] at hdir
  · split at hrest
    · cases (Prod.mk.inj hrest).1
    · obtain ⟨k, v, hk, hlast⟩ := solo_bind_ok hrest
      obtain ⟨hstat, rfl⟩ := Prod.mk.inj (solo_perform (c := .stat f) hk)
      split at hlast
      · cases (Prod.mk.inj hlast).1
      · obtain ⟨-, rfl⟩ := Prod.mk.inj hlast
        exact hstat
      · cases (Prod.mk.inj hlast).1

theorem solo_fileExists {t t' : Tree} {f : Filename} {b : Bool}
    (h : solo Posix.perform (fileExists f) t = (.ok b, t')) : t' = t := by
  obtain ⟨r, u, hr, hrest⟩ := solo_bind_ok h
  obtain ⟨-, rfl⟩ := Prod.mk.inj (solo_perform (c := .stat f) hr)
  split at hrest
  · exact (Prod.mk.inj hrest).2.symm
  · exact (Prod.mk.inj hrest).2.symm
  · cases (Prod.mk.inj hrest).1

theorem solo_isDirectory {t t' : Tree} {f : Filename} {b : Bool}
    (h : solo Posix.perform (isDirectory f) t = (.ok b, t')) : t' = t ∧ (b = true → t.stat f = .ok .dir) := by
  obtain ⟨r, u, hr, hrest⟩ := solo_bind_ok h
  obtain ⟨hk, rfl⟩ := Prod.mk.inj (solo_perform (c := .stat f) hr)
  split at hrest
  · rename_i k
    obtain ⟨hb, rfl⟩ := Prod.mk.inj hrest
    refine ⟨rfl, fun htrue => ?_⟩
    obtain rfl : k = .dir := by simpa using (Except.ok.inj hb).trans htrue
    exact hk
  · cases (Prod.mk.inj hrest).1

theorem solo_isEmptyDirectory {t t' : Tree} {f : Filename} {b : Bool}
    (h : solo Posix.perform (isEmptyDirectory f) t = (.ok b, t')) : t' = t := by
  obtain ⟨r, u, hr, hrest⟩ := solo_bind_ok h
  obtain ⟨-, rfl⟩ := Prod.mk.inj (solo_perform (c := .list f) hr)
  split at hrest
  · exact (Prod.mk.inj hrest).2.symm
  · cases (Prod.mk.inj hrest).1

theorem stat_checkBeamdir {t t' : Tree} {acqdir : Filename} {newAcq : Bool} {b : Int}
    (h : solo Posix.perform (checkBeamdir acqdir newAcq b) t = (.ok (), t')) :
    t'.stat (acqdir ++ '/' :: beamName b) = .ok .dir := by
  obtain ⟨e, u, he, hrest⟩ := solo_bind_ok h
  obtain rfl := solo_fileExists he
  split at hrest
  · exact stat_makedir hrest
  · obtain ⟨d, v, hd, hlook⟩ := solo_bind_ok hrest
    obtain ⟨rfl, hdir⟩ := solo_isDirectory hd
    cases d with
    | false => cases (Prod.mk.inj hlook).1
    | true =>
      cases newAcq with
      | false =>
        obtain ⟨-, rfl⟩ := Prod.mk.inj hlook
        exact hdir rfl
      | true =>
        obtain ⟨x, w, hx, hlast⟩ := solo_bind_ok hlook
        obtain rfl := solo_isEmptyDirectory hx
        split at hlast
        · cases (Prod.mk.inj hlast).1
        · obtain ⟨-, rfl⟩ := Prod.mk.inj hlast
          exact hdir rfl

theorem stat_checkBeamdirs {acqdir : Filename} {newAcq : Bool} : ∀ {bs : List Int} {t t' : Tree},
    solo Posix.perform (checkBeamdirs acqdir newAcq bs) t = (.ok (), t') →
      ∀ b ∈ bs, t'.stat (acqdir ++ '/' :: beamName b) = .ok .dir
  | [],      _, _,  _, _, hb => nomatch hb
  | b :: bs, t, t', h, c, hc => by
    obtain ⟨_, u, hfirst, hrest⟩ := solo_bind_ok h
    rcases List.mem_cons.1 hc with rfl | hc
    · have hgrows := adds_checkBeamdirs acqdir newAcq bs u
      rw [hrest] at hgrows
      exact stat_of_grows hgrows (stat_checkBeamdir hfirst)
    · exact stat_checkBeamdirs hrest c hc

/-- The acquisition's directory and those of its beams are there. -/
structure Prepared (t : Tree) (acqdir : Filename) (beamIds : List Int) : Prop where
  dir   : t.stat acqdir = .ok .dir
  beams : ∀ b ∈ beamIds, t.stat (acqdir ++ '/' :: beamName b) = .ok .dir

theorem prepared_checkAcqdir {base acqname : Filename} {newAcq : Bool} {bs : List Int} {t t' : Tree}
    (h : solo Posix.perform (checkAcqdir base acqname bs newAcq) t = (.ok (), t')) :
    Prepared t' (base ++ '/' :: acqname) bs := by
  obtain ⟨_, u, hmake, hrest⟩ := solo_bind_ok h
  have hgrows := adds_checkBeamdirs (base ++ '/' :: acqname) newAcq bs u
  rw [hrest] at hgrows
  exact ⟨stat_of_grows hgrows (stat_makedir hmake), stat_checkBeamdirs hrest⟩

/-! ## The pattern -/

def patternDir (devname acqname : Filename) : Filename :=
  (if strcaseeq devname "ssd".toList then ssdBase else "/frb-archiver-(STREAM)/acq_data".toList) ++ '/' :: acqname

def filenamePattern (devname acqname : Filename) : Filename :=
  (patternDir devname acqname ++ '/' :: "beam_(BEAM)".toList) ++ '/' :: "chunk_(CHUNK).msg".toList

theorem prepared_of_checks {check : Sys Unit} {base acqname p pattern : Filename} {newAcq : Bool} {bs : List Int}
    {t t' : Tree} (h : solo Posix.perform (do
      check
      checkAcqdir base acqname bs newAcq
      pure p) t = (.ok pattern, t')) : pattern = p ∧ Prepared t' (base ++ '/' :: acqname) bs := by
  obtain ⟨_, u, -, hrest⟩ := solo_bind_ok h
  obtain ⟨_, v, hcheck, hlast⟩ := solo_bind_ok hrest
  obtain ⟨hpattern, rfl⟩ := Prod.mk.inj hlast
  exact ⟨(Except.ok.inj hpattern).symm, prepared_checkAcqdir hcheck⟩

theorem filenamePattern_eq (devname acqname : Filename) :
    filenamePattern devname acqname = patternDir devname acqname ++ "/beam_(BEAM)/chunk_(CHUNK).msg".toList := by
  have hlit : "/beam_(BEAM)/chunk_(CHUNK).msg".toList =
      '/' :: ("beam_(BEAM)".toList ++ '/' :: "chunk_(CHUNK).msg".toList) := by decide
  unfold filenamePattern
  rw [hlit, List.append_assoc, List.cons_append]

theorem asked_for {acqname : Filename} {beamIds : List Int} (hname : acqname ≠ []) (hbeams : beamIds ≠ []) :
    ¬ (acqname.length = 0 ∨ beamIds.length = 0) := by
  rw [List.length_eq_zero_iff, List.length_eq_zero_iff, not_or]
  exact ⟨hname, hbeams⟩

theorem acqnameToFilenamePattern_nil (devname acqname : Filename) (streamIds : List Int) (newAcq : Bool) :
    acqnameToFilenamePattern devname acqname streamIds [] newAcq = .ret [] := if_pos (.inr rfl)

theorem ssd_pattern {devname : Filename} (hssd : strcaseeq devname "ssd".toList = true) (acqname : Filename) :
    "/local/acq_data/".toList ++ acqname ++ "/beam_(BEAM)/chunk_(CHUNK).msg".toList =
      filenamePattern devname acqname := by
  have hbase : "/local/acq_data/".toList = ssdBase ++ ['/'] := by decide
  rw [filenamePattern_eq, patternDir, if_pos hssd, hbase, List.append_assoc ssdBase, List.singleton_append]

theorem nfs_pattern {devname : Filename} (hssd : ¬ strcaseeq devname "ssd".toList = true) (acqname : Filename) :
    "/frb-archiver-(STREAM)/acq_data/".toList ++ acqname ++ "/beam_(BEAM)/chunk_(CHUNK).msg".toList =
      filenamePattern devname acqname := by
  have hbase : "/frb-archiver-(STREAM)/acq_data/".toList = "/frb-archiver-(STREAM)/acq_data".toList ++ ['/'] := by
    decide
  rw [filenamePattern_eq, patternDir, if_neg hssd, hbase, List.append_assoc "/frb-archiver-(STREAM)/acq_data".toList,
    List.singleton_append]

/-- **What `acqname_to_filename_pattern` comes to**: nothing has been asked for, or it throws, or the acquisition is
prepared after a check of the base directories. -/
theorem acqnameToFilenamePattern_cases (devname acqname : Filename) (streamIds beamIds : List Int) (newAcq : Bool) :
    ((acqname = [] ∨ beamIds = []) ∧ acqnameToFilenamePattern devname acqname streamIds beamIds newAcq = .ret []) ∨
    (∃ what, acqnameToFilenamePattern devname acqname streamIds beamIds newAcq = .throw what) ∨
    (beamIds ≠ [] ∧ ∃ check base, acqdir devname acqname = base ++ '/' :: acqname ∧
      acqnameToFilenamePattern devname acqname streamIds beamIds newAcq = (do
        check
        checkAcqdir base acqname beamIds newAcq
        pure (filenamePattern devname acqname))) := by
  unfold acqnameToFilenamePattern acqdir
  by_cases hnone : acqname.length = 0 ∨ beamIds.length = 0
  · rw [if_pos hnone]
    rw [List.length_eq_zero_iff, List.length_eq_zero_iff] at hnone
    exact .inl ⟨hnone, rfl⟩
  · have hbeams : beamIds ≠ [] := fun h => hnone (.inr (by rw [h]; rfl))
    rw [if_neg hnone]
    refine .inr ?_
    by_cases hssd : strcaseeq devname "ssd".toList = true
    · rw [if_pos hssd, if_pos hssd, ssd_pattern hssd]
      exact .inr ⟨hbeams, checkAcqdirBase ssdBase, ssdBase, rfl, rfl⟩
    · rw [if_neg hssd, if_neg hssd]
      by_cases hnfs : strcaseeq devname "nfs".toList = true
      · rw [if_pos hnfs, nfs_pattern hssd]
        exact .inr ⟨hbeams, checkNfsBases streamIds, nfsBase 1, rfl, rfl⟩
      · rw [if_neg hnfs]
        exact .inl ⟨_, rfl⟩

theorem acqnameToFilenamePattern_eq (devname : Filename) {acqname : Filename} (streamIds : List Int)
    {beamIds : List Int} (newAcq : Bool) (hname : acqname ≠ []) (hbeams : beamIds ≠ []) :
    ∃ checks : Sys Unit, acqnameToFilenamePattern devname acqname streamIds beamIds newAcq =
      checks.bind (fun _ => .ret (filenamePattern devname acqname)) := by
  rcases acqnameToFilenamePattern_cases devname acqname streamIds beamIds newAcq with
    ⟨hnone, -⟩ | ⟨what, hp⟩ | ⟨-, check, base, -, hp⟩
  · exact absurd hnone (not_or.2 ⟨hname, hbeams⟩)
  · exact ⟨.throw what, hp⟩
  · refine ⟨check.bind (fun _ => checkAcqdir base acqname beamIds newAcq), ?_⟩
    rw [hp, bind_assoc]
    rfl

/-- **A pattern that is returned**, and what has been prepared for it. -/
theorem acqnameToFilenamePattern_ok {devname acqname pattern : Filename} {streamIds beamIds : List Int} {newAcq : Bool}
    {t t' : Tree}
    (h : solo Posix.perform (acqnameToFilenamePattern devname acqname streamIds beamIds newAcq) t = (.ok pattern, t'))
    (hne : pattern ≠ []) : beamIds ≠ [] ∧ pattern = filenamePattern devname acqname ∧
      Prepared t' (acqdir devname acqname) beamIds := by
  rcases acqnameToFilenamePattern_cases devname acqname streamIds beamIds newAcq with
    ⟨-, hp⟩ | ⟨what, hp⟩ | ⟨hbeams, check, base, hdir, hp⟩
  · rw [hp] at h
    exact absurd (Except.ok.inj (Prod.mk.inj h).1).symm hne
  · rw [hp] at h
    cases (Prod.mk.inj h).1
  · rw [hp] at h
    rw [hdir]
    exact ⟨hbeams, prepared_of_checks h⟩

theorem pattern_of_runs {A : (c : Call) → c.Result → Prop} {devname acqname pattern : Filename}
    {streamIds beamIds : List Int} {newAcq : Bool} {calls : List Call}
    (h : Runs A (acqnameToFilenamePattern devname acqname streamIds beamIds newAcq) (.ok pattern) calls)
    (hne : pattern ≠ []) : pattern = filenamePattern devname acqname := by
  rcases acqnameToFilenamePattern_cases devname acqname streamIds beamIds newAcq with
    ⟨-, hp⟩ | ⟨what, hp⟩ | ⟨-, check, base, -, hp⟩
  · rw [hp] at h
    exact absurd (Except.ok.inj h.1) hne
  · rw [hp] at h
    cases h.1
  · rw [hp] at h
    obtain ⟨_, _, _, _, hrest, -⟩ := runs_bind_ok h
    obtain ⟨_, _, _, _, hlast, -⟩ := runs_bind_ok hrest
    exact Except.ok.inj hlast.1

/-! ## Where the files go -/

def dirname (f : Filename) : Filename := f.take ((rfind '/' f).getD 0)

theorem dirname_append {s : Filename} (hs : '/' ∉ s) (a : Filename) : dirname (a ++ '/' :: s) = a := by
  unfold dirname
  rw [rfind_append hs, Option.getD_some, List.take_left]

theorem slash_not_mem_beam (n : Int) : '/' ∉ "beam_".toList ++ formatInt 4 n := by
  rw [List.mem_append, not_or]
  exact ⟨by decide, not_mem_formatInt rfl (by decide) 4 n⟩

theorem slash_not_mem_chunk (n : Int) : '/' ∉ "chunk_".toList ++ (formatInt 8 n ++ ".msg".toList) := by
  rw [List.mem_append, List.mem_append, not_or, not_or]
  exact ⟨by decide, not_mem_formatInt rfl (by decide) 8 n, by decide⟩

theorem acqPatternToDir_eq {a b c : Filename} (ha : a ≠ []) (hb : '/' ∉ b) (hc : '/' ∉ c) :
    acqPatternToDir ((a ++ '/' :: b) ++ '/' :: c) = .ret a := by
  have hcut : ∀ (p : Filename) (i j : Nat), rfind '/' p = some i → i ≠ 0 → rfind '/' (p.take i) = some j → j ≠ 0 →
      acqPatternToDir p = .ret (p.take j) := fun p i j h₁ hi h₂ hj => by
    obtain ⟨i, rfl⟩ := Nat.exists_eq_succ_of_ne_zero hi
    obtain ⟨j, rfl⟩ := Nat.exists_eq_succ_of_ne_zero hj
    simp only [acqPatternToDir, h₁, h₂]
  have hsecond : rfind '/' (((a ++ '/' :: b) ++ '/' :: c).take (a ++ '/' :: b).length) = some a.length := by
    rw [List.take_left]
    exact rfind_append hb a
  rw [hcut _ _ _ (rfind_append hc _) (by simp) hsecond (by simpa using ha), List.append_assoc, List.take_left]

/-- The base directory of an acquisition's files, on the archiver of a stream. -/
def fileBase (devname : Filename) (streamId : Int) : Filename :=
  if strcaseeq devname "ssd".toList then ssdBase else nfsBase streamId

section
variable {formatFilename : AssembledChunk → Filename → Filename} (hformat : FormatsAsDocumented formatFilename)
include hformat

theorem format_patternDir (k : AssembledChunk) (devname acqname : Filename) :
    formatFilename k (patternDir devname acqname) = fileBase devname k.streamId ++ '/' :: formatFilename k acqname := by
  unfold patternDir fileBase
  rw [hformat.path]
  by_cases hssd : strcaseeq devname "ssd".toList = true
  · rw [if_pos hssd, if_pos hssd, hformat.plain k ssdBase (by decide)]
  · rw [if_neg hssd, if_neg hssd]
    have hlit : "/frb-archiver-(STREAM)/acq_data".toList =
        "/frb-archiver-".toList ++ (Placeholder.text .stream ++ "/acq_data".toList) := by decide
    have hvalue : Placeholder.value k .stream = toString k.streamId := formatInt_one k.streamId
    rw [hlit, hformat.value k .stream _ _ (by decide) (by decide), hvalue, ← List.append_assoc "/frb-archiver-".toList]
    rfl

theorem format_filenamePattern (k : AssembledChunk) (devname acqname : Filename) :
    formatFilename k (filenamePattern devname acqname) =
      ((fileBase devname k.streamId ++ '/' :: formatFilename k acqname) ++ '/' :: ("beam_".toList ++ formatInt 4 k.beamId)) ++
        '/' :: ("chunk_".toList ++ (formatInt 8 k.ichunk.toNat ++ ".msg".toList)) := by
  have hbeam : "beam_(BEAM)".toList = "beam_".toList ++ (Placeholder.text .beam ++ []) := by decide
  have hchunk : "chunk_(CHUNK).msg".toList = "chunk_".toList ++ (Placeholder.text .chunk ++ ".msg".toList) := by decide
  have hbeam' : formatFilename k "beam_(BEAM)".toList = "beam_".toList ++ formatInt 4 k.beamId := by
    rw [hbeam, hformat.value k .beam _ _ (by decide) (by decide), List.append_nil]
    rfl
  have hchunk' : formatFilename k "chunk_(CHUNK).msg".toList =
      "chunk_".toList ++ (formatInt 8 k.ichunk.toNat ++ ".msg".toList) := by
    rw [hchunk, hformat.value k .chunk _ _ (by decide) (by decide)]
    rfl
  unfold filenamePattern
  rw [hformat.path, hformat.path, format_patternDir hformat, hbeam', hchunk']

end

/-! ## The same directory -/

/-- The same filename, but for the number of the archiver. -/
def SameUpToMount (f g : Filename) : Prop :=
  f = g ∨ ∃ (m n : Int) (s : Filename), f = "/frb-archiver-".toList ++ (toString m ++ '/' :: s) ∧
    g = "/frb-archiver-".toList ++ (toString n ++ '/' :: s)

theorem nfsBase_append (n : Int) (f : Filename) :
    nfsBase n ++ '/' :: f = "/frb-archiver-".toList ++ (toString n ++ '/' :: ("acq_data".toList ++ '/' :: f)) := by
  have hlit : "/acq_data".toList = '/' :: "acq_data".toList := by decide
  unfold nfsBase
  rw [hlit, List.append_assoc, List.append_assoc, List.cons_append]

theorem slash_not_mem_toString (n : Int) : '/' ∉ toString n := fun h =>
  not_mem_setw rfl (by decide) 0 n (List.mem_append_right _ h)

theorem toString_slash_inj {m n : Int} {f g : Filename}
    (h : "/frb-archiver-".toList ++ (toString m ++ '/' :: f) = "/frb-archiver-".toList ++ (toString n ++ '/' :: g)) :
    f = g :=
  (cut_first (slash_not_mem_toString m) (slash_not_mem_toString n) (List.append_cancel_left h)).2

/-- Within the base directories of an acquisition nothing but the rest of the name tells directories apart. -/
theorem sameUpToMount_fileBase {devname f g : Filename} {m n : Int} :
    SameUpToMount (fileBase devname m ++ '/' :: f) (fileBase devname n ++ '/' :: g) ↔ f = g := by
  unfold fileBase
  by_cases hssd : strcaseeq devname "ssd".toList = true
  · rw [if_pos hssd, if_pos hssd]
    constructor
    · rintro (h | ⟨k, l, s, h, -⟩)
      · exact (List.cons.inj (List.append_cancel_left h)).2
      · have hbase : ssdBase = '/' :: 'l' :: "ocal/acq_data".toList := by decide
        have hnfs : "/frb-archiver-".toList = '/' :: 'f' :: "rb-archiver-".toList := by decide
        rw [hbase, hnfs] at h
        exact absurd (List.cons.inj (List.cons.inj h).2).1 (by decide)
    · rintro rfl
      exact .inl rfl
  · rw [if_neg hssd, if_neg hssd, nfsBase_append, nfsBase_append]
    constructor
    · rintro (h | ⟨k, l, s, hf, hg⟩)
      · exact (List.cons.inj (List.append_cancel_left (toString_slash_inj h))).2
      · have hfg := (toString_slash_inj hf).trans (toString_slash_inj hg).symm
        exact (List.cons.inj (List.append_cancel_left hfg)).2
    · rintro rfl
      exact .inr ⟨m, n, _, rfl, rfl⟩

theorem acqdir_eq (devname acqname : Filename) : acqdir devname acqname = fileBase devname 1 ++ '/' :: acqname := rfl

/-! ## The metadata -/

theorem setw_one (n : Int) : setw 1 n = toString n := by
  have hpos : 0 < (toString n).length := List.length_pos_of_ne_nil (toString_ne_nil n)
  have hlen : 1 - (toString n).length = 0 := by omega
  unfold setw
  rw [hlen]
  rfl

theorem fillStream_patternDir (devname acqname : Filename) (streamId : Int) :
    fillStream streamId (patternDir devname acqname) = fileBase devname streamId ++ '/' :: fillStream streamId acqname := by
  unfold patternDir fileBase
  rw [fillStream_slash]
  by_cases hssd : strcaseeq devname "ssd".toList = true
  · rw [if_pos hssd, if_pos hssd, fillStream_plain (s := ssdBase) (by decide)]
  · have hlit : "/frb-archiver-(STREAM)/acq_data".toList =
        "/frb-archiver-".toList ++ ("(STREAM)".toList ++ "/acq_data".toList) := by decide
    have hbase : fillStream streamId "/frb-archiver-(STREAM)/acq_data".toList = nfsBase streamId := by
      rw [hlit, fillStream_name, fillStream_plain (s := "/frb-archiver-".toList) (by decide),
        fillStream_plain (s := "/acq_data".toList) (by decide), setw_one, ← List.append_assoc]
      rfl
    rw [if_neg hssd, if_neg hssd, hbase]

theorem replaceStream_patternDir {devname acqname : Filename} (h : ¬ "(STREAM)".toList <:+: acqname) (streamId : Int) :
    replaceStream (patternDir devname acqname) streamId = fileBase devname streamId ++ '/' :: acqname := by
  rw [replaceStream_eq, fillStream_patternDir, fillStream_plain h]

/-! ## All acquisitions -/

/-- The files of an acquisition go to the directories that have been prepared for its beams, and its metadata to its own
directory, but for the number of the archiver. -/
structure GoesToPrepared (formatFilename : AssembledChunk → Filename → Filename) (pattern acqdir : Filename)
    (beamIds : List Int) : Prop where
  files    : ∀ k : AssembledChunk, k.beamId ∈ beamIds →
    SameUpToMount (dirname (formatFilename k pattern)) (acqdir ++ '/' :: beamName k.beamId)
  metadata : ∀ (streamId : Int) (t : Tree), ∃ dir, solo Posix.perform (acqPatternToDir pattern) t = (.ok dir, t) ∧
    SameUpToMount (replaceStream dir streamId) acqdir

theorem beamName_eq_iff {b : Int} : "beam_".toList ++ formatInt 4 b = beamName b ↔ 0 ≤ b ∨ b ≤ -100 := by
  have hlen : (Nat.toDigits 10 b.natAbs).length ≤ 2 ↔ b.natAbs < 10 ^ 2 :=
    Nat.length_toDigits_le_iff (by decide) (by decide)
  unfold beamName
  rw [List.append_cancel_left_eq, eq_comm, setw_eq_formatInt]
  omega

theorem acqPatternToDir_filenamePattern (devname acqname : Filename) :
    acqPatternToDir (filenamePattern devname acqname) = .ret (patternDir devname acqname) := by
  have hne : patternDir devname acqname ≠ [] := List.append_ne_nil_of_right_ne_nil _ (List.cons_ne_nil '/' acqname)
  have hbeam : '/' ∉ "beam_(BEAM)".toList := by decide
  have hchunk : '/' ∉ "chunk_(CHUNK).msg".toList := by decide
  exact acqPatternToDir_eq hne hbeam hchunk

section
variable {formatFilename : AssembledChunk → Filename → Filename} (hformat : FormatsAsDocumented formatFilename)
include hformat

theorem dirname_format (k : AssembledChunk) (devname acqname : Filename) :
    dirname (formatFilename k (filenamePattern devname acqname)) = fileBase devname k.streamId ++
      '/' :: (formatFilename k acqname ++ '/' :: ("beam_".toList ++ formatInt 4 k.beamId)) := by
  rw [format_filenamePattern hformat, dirname_append (slash_not_mem_chunk _), List.append_assoc, List.cons_append]

theorem sameUpToMount_dirname (k : AssembledChunk) (devname acqname : Filename) :
    SameUpToMount (dirname (formatFilename k (filenamePattern devname acqname)))
      (acqdir devname acqname ++ '/' :: beamName k.beamId) ↔
    formatFilename k acqname = acqname ∧ (0 ≤ k.beamId ∨ k.beamId ≤ -100) := by
  rw [dirname_format hformat, acqdir_eq, List.append_assoc, List.cons_append, sameUpToMount_fileBase]
  constructor
  · intro h
    obtain ⟨hname, hdir⟩ := cut_last (slash_not_mem_beam k.beamId) (slash_not_mem_beamName k.beamId) h
    exact ⟨hname, beamName_eq_iff.1 hdir⟩
  · rintro ⟨hname, hdir⟩
    rw [hname, beamName_eq_iff.2 hdir]

theorem goesToPrepared_iff {devname acqname : Filename} {beamIds : List Int} (hbeams : beamIds ≠ []) :
    GoesToPrepared formatFilename (filenamePattern devname acqname) (acqdir devname acqname) beamIds ↔
      placeholders.Plain acqname ∧ ∀ b ∈ beamIds, 0 ≤ b ∨ b ≤ -100 := by
  constructor
  · rintro ⟨hfiles, -⟩
    have hall : ∀ b ∈ beamIds, _ := fun b hb =>
      (sameUpToMount_dirname hformat ⟨b, 0, 0, 0, 1, 1⟩ devname acqname).1 (hfiles ⟨b, 0, 0, 0, 1, 1⟩ hb)
    obtain ⟨b, hb⟩ := List.exists_mem_of_ne_nil beamIds hbeams
    exact ⟨not_not.1 (fun hph => hformat.replaced _ _ hph (hall b hb).1), fun b hb => (hall b hb).2⟩
  · rintro ⟨hplain, hids⟩
    constructor
    · exact fun k hk =>
        (sameUpToMount_dirname hformat k devname acqname).2 ⟨hformat.plain k acqname hplain, hids k.beamId hk⟩
    · intro streamId t
      refine ⟨patternDir devname acqname, by rw [acqPatternToDir_filenamePattern]; rfl, ?_⟩
      rw [replaceStream_patternDir (hplain .stream), acqdir_eq]
      exact sameUpToMount_fileBase.2 rfl

end

/-- **The directories that are prepared are those that are written to**, if and only if the acquisition's name has no
placeholder in it and no beam's number is between -99 and -1. -/
theorem files_go_to_prepared (formatFilename : AssembledChunk → Filename → Filename)
    (hformat : FormatsAsDocumented formatFilename) (t t' : Tree) (devname acqname pattern : Filename)
    (streamIds beamIds : List Int) (newAcq : Bool)
    (hrun : solo Posix.perform (acqnameToFilenamePattern devname acqname streamIds beamIds newAcq) t =
      (.ok pattern, t')) (hne : pattern ≠ []) :
    Prepared t' (acqdir devname acqname) beamIds ∧
    (GoesToPrepared formatFilename pattern (acqdir devname acqname) beamIds ↔
      placeholders.Plain acqname ∧ ∀ b ∈ beamIds, 0 ≤ b ∨ b ≤ -100) := by
  obtain ⟨hbeams, rfl, hprepared⟩ := acqnameToFilenamePattern_ok hrun hne
  exact ⟨hprepared, goesToPrepared_iff hformat hbeams⟩

theorem files_go_to_prepared_run1 : GoesToPrepared fillFilename
    "/frb-archiver-(STREAM)/acq_data/run1/beam_(BEAM)/chunk_(CHUNK).msg".toList
    (acqdir "nfs".toList "run1".toList) [0, 139] := by
  have hrun : (solo Posix.perform (acqnameToFilenamePattern "nfs".toList "run1".toList [1] [0, 139] true) archivers).1 =
      .ok "/frb-archiver-(STREAM)/acq_data/run1/beam_(BEAM)/chunk_(CHUNK).msg".toList := by decide +kernel
  exact (files_go_to_prepared fillFilename fillFilename_asDocumented archivers _ "nfs".toList "run1".toList _ [1] [0, 139]
    true (Prod.ext hrun rfl) (by decide)).2.2 ⟨by decide, by decide⟩

/-- **An acquisition whose files go elsewhere**: its directory is made under the literal name `run_(BEAM)`. -/
theorem files_go_elsewhere : ∃ pattern t',
    solo Posix.perform (acqnameToFilenamePattern "nfs".toList "run_(BEAM)".toList [1] [0] true) archivers =
      (.ok pattern, t') ∧ pattern ≠ [] ∧
    ∀ formatFilename, FormatsAsDocumented formatFilename →
      ¬ GoesToPrepared formatFilename pattern (acqdir "nfs".toList "run_(BEAM)".toList) [0] := by
  have hrun : (solo Posix.perform (acqnameToFilenamePattern "nfs".toList "run_(BEAM)".toList [1] [0] true) archivers).1 =
      .ok (filenamePattern "nfs".toList "run_(BEAM)".toList) := by decide +kernel
  have hname : ¬ placeholders.Plain "run_(BEAM)".toList := by decide
  exact ⟨_, _, Prod.ext hrun rfl, by decide, fun _ hformat h =>
    hname ((goesToPrepared_iff hformat (List.cons_ne_nil 0 [])).1 h).1⟩

/-! ## The metadata's directory -/

/-- **The metadata's directory**, whatever the system calls have returned: that of the pattern, with the stream's number
in the place of each `(STREAM)`, and nothing left to replace. -/
theorem metadata_dir (A : (c : Call) → c.Result → Prop) (devname acqname pattern : Filename)
    (streamIds beamIds : List Int) (newAcq : Bool) (calls : List Call)
    (hrun : Runs A (acqnameToFilenamePattern devname acqname streamIds beamIds newAcq) (.ok pattern) calls)
    (hne : pattern ≠ []) :
    ∃ dir, pattern = dir ++ "/beam_(BEAM)/chunk_(CHUNK).msg".toList ∧ acqPatternToDir pattern = .ret dir ∧
      ∀ streamId : Int, replaceAll dir "(STREAM)".toList (setw 1 streamId) = some (fillStream streamId dir) ∧
        ¬ "(STREAM)".toList <:+: fillStream streamId dir := by
  obtain rfl := pattern_of_runs hrun hne
  refine ⟨patternDir devname acqname, filenamePattern_eq devname acqname, acqPatternToDir_filenamePattern devname acqname,
    fun streamId => ?_⟩
  exact ⟨replaceAll_stream _ streamId, not_infix_fillStream streamId _⟩

/-- An acquisition's name with one `(STREAM)` within another. -/
theorem metadata_dir_nested :
    replaceAll "/frb-archiver-(STREAM)/acq_data/((STREAM)STREAM)".toList "(STREAM)".toList (setw 1 12) =
      some "/frb-archiver-12/acq_data/(12STREAM)".toList := by
  have hrun : (solo Posix.perform (acqnameToFilenamePattern "nfs".toList "((STREAM)STREAM)".toList [1] [0] true)
      archivers).1 = .ok (filenamePattern "nfs".toList "((STREAM)STREAM)".toList) := by decide +kernel
  obtain ⟨calls, hcalls⟩ := runs_of_solo Posix.perform
    (acqnameToFilenamePattern "nfs".toList "((STREAM)STREAM)".toList [1] [0] true) archivers
  rw [hrun] at hcalls
  obtain ⟨dir, hdir, -, hall⟩ := metadata_dir (fun _ _ => True) _ _ _ _ _ _ calls hcalls (by decide)
  obtain rfl : dir = "/frb-archiver-(STREAM)/acq_data/((STREAM)STREAM)".toList :=
    List.append_cancel_right (hdir.symm.trans (filenamePattern_eq _ _))
  rw [(hall 12).1]
  decide

end FileUtils
end FrbL1
