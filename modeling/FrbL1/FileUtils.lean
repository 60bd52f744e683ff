import FrbL1.Digits
import FrbL1.Interleave
import FrbL1.PosixTree
/-!
# FileUtils — the acquisition directories

The functions of `file_utils.cpp` that prepare an acquisition, as programs over the system calls they make.  An
exception carries its text.  Strings are lists of characters.
-/
namespace FrbL1
namespace FileUtils

open Posix (Filename Kind Errno strerror Call)
open Conc (Prog)

/-- A program over system calls, which may throw a `runtime_error`. -/
abbrev Sys (α : Type) := Prog Call Call.Result (List Char) α

def stat (f : Filename) : Sys (Except Errno Kind) := Prog.perform (Call.stat f)
def mkdir (f : Filename) : Sys (Except Errno Unit) := Prog.perform (Call.mkdir f)
def readdir (f : Filename) : Sys (Except Errno (List Filename)) := Prog.perform (Call.list f)
def fwrite (f : Filename) (data : List UInt8) : Sys (Except Errno Unit) := Prog.perform (Call.write f data)

/-! ## Strings -/

def toString (n : Int) : List Char :=
  if n < 0 then '-' :: Nat.toDigits 10 n.natAbs else Nat.toDigits 10 n.natAbs

theorem toString_ne_nil (n : Int) : toString n ≠ [] := by
  unfold toString
  split
  · exact List.cons_ne_nil _ _
  · exact Nat.toDigits_ne_nil

/-- `<< setfill('0') << setw(width) << n`. -/
def setw (width : Nat) (n : Int) : List Char := List.replicate (width - (toString n).length) '0' ++ toString n

theorem not_mem_setw {c : Char} (hdigit : c.isDigit = false) (hminus : c ≠ '-') (width : Nat) (n : Int) :
    c ∉ setw width n := by
  intro h
  unfold setw toString at h
  rcases List.mem_append.1 h with h | h
  · rw [List.eq_of_mem_replicate h] at hdigit
    cases hdigit
  · split at h
    · rcases List.mem_cons.1 h with h | h
      · exact hminus h
      · exact Digits.notMem hdigit _ h
    · exact Digits.notMem hdigit _ h

def strcaseeq (a b : List Char) : Bool := a.map Char.toLower == b.map Char.toLower

/-- The text before and after the first occurrence of `pat`: `s.find(pat)`. -/
def find (pat : List Char) : List Char → Option (List Char × List Char)
  | []     => if pat = [] then some ([], []) else none
  | c :: s =>
    if pat <+: c :: s then some ([], (c :: s).drop pat.length)
    else (find pat s).map (fun x => (c :: x.1, x.2))

theorem find_eq {pat pre post : List Char} : ∀ {s : List Char}, find pat s = some (pre, post) → s = pre ++ pat ++ post
  | [], h => by
    unfold find at h
    split at h
    · rename_i hp
      cases h
      rw [hp]
      rfl
    · cases h
  | c :: s, h => by
    unfold find at h
    split at h
    · rename_i hp
      cases h
      rw [List.nil_append]
      exact (List.prefix_iff_eq_append.1 hp).symm
    · obtain ⟨⟨pre', post'⟩, hf, he⟩ := Option.map_eq_some_iff.1 h
      cases he
      rw [find_eq hf]
      rfl

theorem find_of_append {pat : List Char} : ∀ {s u v : List Char}, s = u ++ pat ++ v →
    ∃ pre post, find pat s = some (pre, post) ∧ pre.length ≤ u.length
  | [],     u,      v, h => by
    obtain ⟨hu, -⟩ := List.append_eq_nil_iff.1 h.symm
    exact ⟨[], [], if_pos (List.append_eq_nil_iff.1 hu).2, Nat.zero_le _⟩
  | c :: s, [],     v, h => ⟨[], _, if_pos ⟨v, h.symm⟩, le_rfl⟩
  | c :: s, d :: u, v, h => by
    obtain ⟨-, htail⟩ := List.cons.inj h
    obtain ⟨pre, post, hf, hle⟩ := find_of_append htail
    by_cases hp : pat <+: c :: s
    · exact ⟨[], _, if_pos hp, Nat.zero_le _⟩
    · refine ⟨c :: pre, post, ?_, Nat.succ_le_succ hle⟩
      rw [find, if_neg hp, hf]
      rfl

theorem not_infix_of_find {pat s : List Char} (h : find pat s = none) : ¬ pat <:+: s := by
  rintro ⟨u, v, rfl⟩
  obtain ⟨pre, post, hf, -⟩ := find_of_append (rfl : u ++ pat ++ v = u ++ pat ++ v)
  rw [h] at hf
  cases hf

theorem find_eq_some_iff {pat s pre post : List Char} : find pat s = some (pre, post) ↔
    s = pre ++ pat ++ post ∧ ∀ u v, s = u ++ pat ++ v → pre.length ≤ u.length := by
  constructor
  · intro h
    refine ⟨find_eq h, fun u v hs => ?_⟩
    obtain ⟨pre', post', h', hle⟩ := find_of_append hs
    rw [h] at h'
    cases h'
    exact hle
  · rintro ⟨hs, hfirst⟩
    obtain ⟨pre', post', h', hle⟩ := find_of_append hs
    have hs' := find_eq h'
    have hlen : pre'.length = pre.length := Nat.le_antisymm hle (hfirst pre' post' hs')
    rw [hs, List.append_assoc, List.append_assoc] at hs'
    obtain ⟨rfl, hrest⟩ := List.append_inj hs' hlen.symm
    rw [h', List.append_cancel_left hrest]

/-- `s.rfind(c)`; `s.rfind(c, pos)` is that of the first `pos + 1` characters. -/
def rfind (c : Char) : List Char → Option Nat
  | []     => none
  | x :: s =>
    match rfind c s with
    | some i => some (i + 1)
    | none   => if x = c then some 0 else none

theorem rfind_eq_none {c : Char} : ∀ {s : List Char}, c ∉ s → rfind c s = none
  | [],     _ => rfl
  | d :: s, h => by
    obtain ⟨hd, hs⟩ := not_or.1 (mt List.mem_cons.2 h)
    rw [rfind, rfind_eq_none hs]
    exact if_neg (Ne.symm hd)

theorem rfind_append {c : Char} {s : List Char} (hs : c ∉ s) : ∀ a : List Char, rfind c (a ++ c :: s) = some a.length
  | []     => by rw [List.nil_append, rfind, rfind_eq_none hs, if_pos rfl]; rfl
  | d :: a => by rw [List.cons_append, rfind, rfind_append hs a]; rfl

theorem last_of_mem {c : Char} {s : List Char} (h : c ∈ s) : ∃ a b, s = a ++ c :: b ∧ c ∉ b := by
  obtain ⟨b, a, hs, hb⟩ := List.eq_append_cons_of_mem (List.mem_reverse.2 h)
  refine ⟨a.reverse, b.reverse, ?_, mt List.mem_reverse.1 hb⟩
  rw [← List.reverse_reverse s, hs]
  simp

/-! ## The file system -/

def fileExists (filename : Filename) : Sys Bool := do
  match ← stat filename with
  | .ok _         => pure true
  | .error .noent => pure false
  | .error e      => .throw (filename ++ ": ".toList ++ strerror e)

def isDirectory (filename : Filename) : Sys Bool := do
  match ← stat filename with
  | .ok k    => pure (k == .dir)
  | .error e => .throw (filename ++ ": ".toList ++ strerror e)

def isEmptyDirectory (dirname : Filename) : Sys Bool := do
  match ← readdir dirname with
  | .ok names => pure names.isEmpty
  | .error e  => .throw (dirname ++ ": opendir() failed: ".toList ++ strerror e)

def makedir (filename : Filename) (throwExceptionIfDirectoryExists : Bool) : Sys Unit := do
  match ← mkdir filename with
  | .ok ()   => pure ()
  | .error e =>
    if throwExceptionIfDirectoryExists ∨ e ≠ .exist then
      .throw (filename ++ ": mkdir() failed: ".toList ++ strerror e)
    else match ← stat filename with
      | .error _      =>
        .throw (filename ++ ": mkdir() returned EEXIST but stat() failed, not sure what is going on".toList)
      | .ok .dir      => pure ()
      | .ok (.file _) => .throw (filename ++ ": file exists but is not a directory".toList)

/-! ## The acquisition -/

def checkAcqdirBase (acqdirBase : Filename) : Sys Unit := do
  if !(← fileExists acqdirBase) then
    .throw ("ch-frb-l1: acqdir_base ".toList ++ acqdirBase ++ " does not exist (probably need to mount device)".toList)
  else if !(← isDirectory acqdirBase) then
    .throw ("ch-frb-l1: acqdir_base ".toList ++ acqdirBase ++ " exists but is not a directory?!".toList)
  else pure ()

def beamName (beamId : Int) : Filename := "beam_".toList ++ setw 4 beamId

/-- The loop of `check_acqdir` over the beams, and its body. -/
def checkBeamdir (acqdir : Filename) (newAcq : Bool) (beamId : Int) : Sys Unit := do
  let beamdir := acqdir ++ '/' :: beamName beamId
  if !(← fileExists beamdir) then
    makedir beamdir false
  else if !(← isDirectory beamdir) then
    .throw ("ch-frb-l1: acqdir ".toList ++ acqdir ++ " exists, but is not a directory?!".toList)
  else if newAcq then
    -- the important case to check, to avoid overwriting a previous acquisition with the same name
    if !(← isEmptyDirectory beamdir) then
      .throw ("ch-frb-l1: acqdir ".toList ++ acqdir ++ " already exists and is nonempty".toList)
    else pure ()
  else pure ()

def checkBeamdirs (acqdir : Filename) (newAcq : Bool) : List Int → Sys Unit
  | []                => pure ()
  | beamId :: beamIds => do
    checkBeamdir acqdir newAcq beamId
    checkBeamdirs acqdir newAcq beamIds

def checkAcqdir (acqdirBase acqname : Filename) (beamIds : List Int) (newAcq : Bool) : Sys Unit := do
  let acqdir := acqdirBase ++ '/' :: acqname
  makedir acqdir false
  checkBeamdirs acqdir newAcq beamIds

def nfsBase (streamId : Int) : Filename := "/frb-archiver-".toList ++ toString streamId ++ "/acq_data".toList

def ssdBase : Filename := "/local/acq_data".toList

def checkNfsBases : List Int → Sys Unit
  | []                    => pure ()
  | streamId :: streamIds => do
    checkAcqdirBase (nfsBase streamId)
    checkNfsBases streamIds

def acqnameToFilenamePattern (devname acqname : Filename) (streamIds beamIds : List Int) (newAcq : Bool) :
    Sys Filename := do
  if acqname.length = 0 ∨ beamIds.length = 0 then
    pure []
  else if strcaseeq devname "ssd".toList then
    checkAcqdirBase ssdBase
    checkAcqdir ssdBase acqname beamIds newAcq
    pure ("/local/acq_data/".toList ++ acqname ++ "/beam_(BEAM)/chunk_(CHUNK).msg".toList)
  else if strcaseeq devname "nfs".toList then
    checkNfsBases streamIds
    checkAcqdir (nfsBase 1) acqname beamIds newAcq
    pure ("/frb-archiver-(STREAM)/acq_data/".toList ++ acqname ++ "/beam_(BEAM)/chunk_(CHUNK).msg".toList)
  else
    .throw "ch-frb-l1::acqname_to_filename_pattern(): 'devname' must be either 'ssd' or 'nfs'".toList

/-- Converts `/local/acq_data/(ACQNAME)/beam_(BEAM)/chunk_(CHUNK).msg` to `/local/acq_data/(ACQNAME)`. -/
def acqPatternToDir (pattern : Filename) : Sys Filename :=
  match rfind '/' pattern with
  | none | some 0 => .throw ("ch-frb-l1::acq_pattern_to_dir: last '/' not found in \"".toList ++ pattern ++ ['"'])
  | some ind1     =>
    match rfind '/' (pattern.take ind1) with
    | none | some 0 =>
      .throw ("ch-frb-l1::acq_pattern_to_dir: second-last '/' not found in \"".toList ++ pattern ++ ['"'])
    | some ind2     => .ret (pattern.take ind2)

end FileUtils
end FrbL1
