import Mathlib.Algebra.Order.Floor.Ring
import Mathlib.Data.List.Sort
import Mathlib.Data.Rat.Floor
import FrbL1.Interleave
import FrbL1.PosixTree
/-!
# AcqInventory — the inventory of the acquisitions

The classes of `ch-frb-make-acq-inventory`.  Their constructors read directories, and what a directory holds when it is
read is their argument.  Their `write_json_files` are programs over the calls they make, and those return the list of
runs they have written.

How a quotient of file numbers is rounded is a parameter of the writers: `exactly` and `inDoubles` are two values of
it.
-/
namespace FrbL1
namespace Inventory

open Posix (Filename Path Errno)
open Conc (Prog)

/-! ## Exceptions and options -/

inductive Exn
  | osError (e : Errno)
  | ioError (e : Errno)
  | runtimeError (text : List Char)
  | assertionError
  | indexError
  | overflowError
  | other (text : List Char)
  deriving DecidableEq, Repr

inductive Device
  | ssd
  | nfs
  deriving DecidableEq, Repr

structure Options where
  device         : Device
  nchunksPerPart : Int
  nchunksOverlap : Int
  nonneg         : 0 ≤ nchunksOverlap
  longer         : nchunksOverlap < nchunksPerPart

/-- The checks of the arguments; an error is its text. -/
def parseOptions (device : List Char) (nchunksPerPart nchunksOverlap : Int) : Except (List Char) Options :=
  let checked (d : Device) : Except (List Char) Options :=
    if h : nchunksOverlap < 0 then .error "Fatal: 'nchunks_overlap' must be >= 0".toList
    else if h' : nchunksPerPart ≤ nchunksOverlap then
      .error "Fatal: 'nchunks_per_part' must be greater than 'nchunks_overlap'".toList
    else .ok ⟨d, nchunksPerPart, nchunksOverlap, Int.not_lt.1 h, Int.not_le.1 h'⟩
  if device = "ssd".toList then checked .ssd
  else if device = "nfs".toList then checked .nfs
  else .error "Fatal: <device> argument must be either 'ssd' or 'nfs'.".toList

def Options.toplevelDir (o : Options) : Filename :=
  match o.device with
  | .ssd => "/local".toList
  | .nfs => "/frb-archiver-1".toList

def Options.nfsHack (o : Options) : Bool := o.device = .nfs

/-! ## Names -/

/-- `os.path.join`, of a directory without a slash at its end and a relative name. -/
def join (dirname basename : Filename) : Filename := dirname ++ '/' :: basename

/-- `os.path.basename` -/
def basename (f : Filename) : Filename := (f.reverse.takeWhile (· ≠ '/')).reverse

/-- `'%d' % n` -/
def decimal (n : Nat) : List Char := Nat.toDigits 10 n

/-- `int(digits)` -/
def int (digits : List Char) : Nat := Nat.ofDigitChars 10 digits 0

/-- What `$` matches: the end, or a newline that ends the text. -/
def atEnd (s : List Char) : Bool := s = [] ∨ s = ['\n']

/-- The number in a match of `beam_(\d+)$`. -/
def matchBeam (s : Filename) : Option Nat :=
  if "beam_".toList <+: s then
    let digits := (s.drop 5).takeWhile Char.isDigit
    if digits ≠ [] ∧ atEnd ((s.drop 5).dropWhile Char.isDigit) then some (int digits) else none
  else none

/-- The number in a match of `chunk_(\d+).msg$`. -/
def matchChunk (s : Filename) : Option Nat :=
  if "chunk_".toList <+: s then
    let digits := (s.drop 6).takeWhile Char.isDigit
    let tail := (s.drop 6).dropWhile Char.isDigit
    -- the dot matches any character but a newline, and if need be the last of the digits
    if digits ≠ [] ∧ tail.head?.any (· ≠ '\n') ∧ "msg".toList <+: tail.tail ∧ atEnd (tail.drop 4) then
      some (int digits)
    else if 2 ≤ digits.length ∧ "msg".toList <+: tail ∧ atEnd (tail.drop 3) then some (int digits.dropLast)
    else none
  else none

/-! ## Reading -/

/-- What `os.listdir` finds in a directory, with what is known about each name. -/
structure Listing (α : Type) where
  entries : List (Filename × α)
  slash   : ∀ e ∈ entries, '/' ∉ e.1
  nodup   : (entries.map (·.1)).Nodup

/-- A beam directory when it is read. -/
structure BeamFound where
  listdir : Except Exn (List Filename)
  t0      : ℚ
  ctime   : Filename → Except Exn ℚ

/-- An acquisition's directory; what is not a directory in it is `none`. -/
structure AcqFound where
  listdir : Except Exn (Listing (Option BeamFound))

/-- The directory of the acquisitions. -/
structure ToplevelFound where
  listdir : Except Exn (Listing (Option AcqFound))

structure BeamDir where
  beamId            : Nat
  parentBasename    : Filename
  beamdirAbspath    : Filename
  dataFileBasenames : List Filename
  inProgress        : Bool
  retryTime         : ℚ

def BeamDir.nfiles (b : BeamDir) : Nat := b.dataFileBasenames.length

/-- The loop over the files of a beam directory; `h` is the hash from numbers to names. -/
def hashChunks (beamdirAbspath : Filename) : List (Nat × Filename) → List Filename → Except Exn (List (Nat × Filename))
  | h, []      => .ok h
  | h, f :: fs =>
    match matchChunk f with
    | none   => hashChunks beamdirAbspath h fs
    | some n =>
      match h.lookup n with
      | some f' => .error (.runtimeError ("ambiguous file pair (".toList ++ join beamdirAbspath f ++ ", ".toList ++
          join beamdirAbspath f' ++ ")".toList))
      | none    => hashChunks beamdirAbspath (h ++ [(n, f)]) fs

/-- The constructor of `beamdir`. -/
def beamdir (parentAbspath beamdirBasename : Filename) (found : BeamFound) : Except Exn BeamDir :=
  match matchBeam beamdirBasename with
  | none        => .error (.runtimeError ("internal error: bad beamdir_basename '".toList ++ beamdirBasename ++ "'".toList))
  | some beamId =>
    let abspath := join parentAbspath beamdirBasename
    let empty : BeamDir := ⟨beamId, basename parentAbspath, abspath, [], false, 0⟩
    match found.listdir with
    | .error e => .error e
    | .ok fs   =>
      match hashChunks abspath [] fs with
      | .error e => .error e
      | .ok h    =>
        let keys := (h.map (·.1)).insertionSort (· ≤ ·)
        match keys.head?, keys.getLast? with
        | some n0, some last =>
          if keys ≠ List.range' n0 (last + 1 - n0) then
            .error (.runtimeError ("non-contiguous time indices in acquisition directory ".toList ++ abspath))
          else
            let names := (List.range' n0 (last + 1 - n0)).filterMap (fun n => h.lookup n)
            match found.ctime (join abspath (names.getLast?.getD [])) with
            | .error e => .error e
            | .ok t1   =>
              if t1 ≥ found.t0 - 60 then .ok { empty with
                dataFileBasenames := names, inProgress := true, retryTime := t1 - found.t0 + 60 }
              else .ok { empty with dataFileBasenames := names }
        | _, _ => .ok empty

structure AcqDir where
  acqdirBasename : Filename
  acqdirAbspath  : Filename
  beamdirHash    : List (Nat × BeamDir)
  inProgress     : Bool
  retryTime      : ℚ

def AcqDir.add (ad : AcqDir) (beamId : Nat) (bd : BeamDir) : AcqDir :=
  { ad with
    beamdirHash := ad.beamdirHash ++ [(beamId, bd)],
    inProgress := ad.inProgress || bd.inProgress,
    retryTime := if bd.inProgress then max ad.retryTime bd.retryTime else ad.retryTime }

/-- The loop of the constructor of `acqdir`. -/
def addBeamdirs : AcqDir → List (Filename × Option BeamFound) → Except Exn AcqDir
  | ad, []                         => .ok ad
  | ad, (_, none) :: rest          => addBeamdirs ad rest
  | ad, (name, some found) :: rest =>
    match matchBeam name with
    | none        => addBeamdirs ad rest
    | some beamId =>
      let abspath := join ad.acqdirAbspath name
      if 10000 ≤ beamId then
        .error (.runtimeError ("bad beam id ".toList ++ decimal beamId ++ " (appearing in filename ".toList ++ abspath ++
          ")".toList))
      else match ad.beamdirHash.lookup beamId with
        | some bd => .error (.runtimeError ("ambiguous directory pair (".toList ++ bd.beamdirAbspath ++ ", ".toList ++
            abspath ++ ")".toList))
        | none    =>
          match beamdir ad.acqdirAbspath name found with
          | .error e => .error e
          | .ok bd   =>
            if bd.nfiles = 0 then addBeamdirs ad rest
            else addBeamdirs (ad.add beamId bd) rest

/-- `bd.in_progress = True` and `bd.retry_time = self.retry_time`, for all the beams. -/
def AcqDir.spread (ad : AcqDir) : AcqDir :=
  if ad.inProgress then
    { ad with beamdirHash := ad.beamdirHash.map (fun x => (x.1, { x.2 with inProgress := true, retryTime := ad.retryTime })) }
  else ad

/-- The constructor of `acqdir`. -/
def acqdir (parentAbspath acqdirBasename : Filename) (found : AcqFound) : Except Exn AcqDir :=
  match found.listdir with
  | .error e => .error e
  | .ok l    =>
    (addBeamdirs ⟨acqdirBasename, join parentAbspath acqdirBasename, [], false, 0⟩ l.entries).map AcqDir.spread

structure AcqInventory where
  acqdirHash : List (Filename × AcqDir)

/-- The loop of the constructor of `acq_inventory`. -/
def addAcqdirs (toplevelAbspath : Filename) : AcqInventory → List (Filename × Option AcqFound) → Except Exn AcqInventory
  | a, []                         => .ok a
  | a, (_, none) :: rest          => addAcqdirs toplevelAbspath a rest
  | a, (name, some found) :: rest =>
    match acqdir toplevelAbspath name found with
    | .error e => .error e
    | .ok ad   =>
      if 0 < ad.beamdirHash.length then addAcqdirs toplevelAbspath ⟨a.acqdirHash ++ [(name, ad)]⟩ rest
      else addAcqdirs toplevelAbspath a rest

/-- The constructor of `acq_inventory`. -/
def acqInventory (toplevelAbspath : Filename) (found : ToplevelFound) : Except Exn AcqInventory :=
  match found.listdir with
  | .error e => .error e
  | .ok l    => addAcqdirs toplevelAbspath ⟨[]⟩ l.entries

/-! ## What is to be written -/

/-- `int(nfiles / float(n) + 0.5)`, as it is rounded. -/
abbrev Rounding := Nat → Int → Except Exn Int

def exactly : Rounding := fun nfiles n => .ok ⌊((nfiles : ℚ) / n + 1 / 2)⌋

/-- `float(n)` -/
def float (n : Int) : Except Exn Float :=
  let x := Float.ofInt n
  if x.isInf then .error .overflowError else .ok x

def inDoubles : Rounding := fun nfiles n => do
  let x ← float nfiles
  let y ← float n
  pure ((x / y + 0.5).toModel.unpack.toInt 0 0)

variable (R : Rounding) (o : Options)

def BeamDir.nparts (b : BeamDir) : Except Exn Int :=
  if b.inProgress then .ok ((b.nfiles : Int) / o.nchunksPerPart)
  else (R b.nfiles o.nchunksPerPart).map (max · 1)

/-- The files of a part: from `i0`, before `i1`. -/
def BeamDir.range (b : BeamDir) (nparts : Int) (ipart : Nat) : Int × Int :=
  (if 0 < ipart then ipart * o.nchunksPerPart - o.nchunksOverlap else ipart * o.nchunksPerPart,
    if (ipart : Int) = nparts - 1 ∧ !b.inProgress then b.nfiles else (ipart + 1) * o.nchunksPerPart)

def BeamDir.runName (b : BeamDir) (nparts : Int) (ipart : Nat) : List Char :=
  b.parentBasename ++ "_beam".toList ++ decimal b.beamId ++ if 1 < nparts then "_part".toList ++ decimal ipart else []

def BeamDir.jsonBasename (b : BeamDir) (nparts : Int) (ipart : Nat) : Filename :=
  b.runName nparts ipart ++ ".json".toList

/-- `self.data_file_basenames[i]` -/
def BeamDir.dataFileBasename (b : BeamDir) (i : Int) : Except Exn Filename :=
  let j := if i < 0 then i + b.nfiles else i
  if j < 0 then .error .indexError
  else match b.dataFileBasenames[j.toNat]? with
    | some f => .ok f
    | none   => .error .indexError

def replaceBeginningOfString (s oldPrefix newPrefix : List Char) : Except Exn (List Char) :=
  if oldPrefix <+: s then .ok (newPrefix ++ s.drop oldPrefix.length) else .error .assertionError

/-- The directory of the `i`-th file; the files are spread over the four archivers. -/
def BeamDir.dataDir (b : BeamDir) (i : Int) : Except Exn Filename :=
  if o.nfsHack then replaceBeginningOfString b.beamdirAbspath "/frb-archiver-1/".toList
    ("/frb-archiver-".toList ++ decimal (i % 4 + 1).toNat ++ "/".toList)
  else .ok b.beamdirAbspath

def BeamDir.dataAbspath (b : BeamDir) (i : Int) : Except Exn Filename := do
  let d ← b.dataDir o i
  let f ← b.dataFileBasename i
  pure (join d f)

def BeamDir.dataAbspathList (b : BeamDir) (nparts : Int) (ipart : Nat) : Except Exn (List Filename) :=
  let (i0, i1) := b.range o nparts ipart
  ((List.range (i1 - i0).toNat).map (fun k => i0 + (k : Nat))).mapM (b.dataAbspath o)

def BeamDir.isNonempty (b : BeamDir) : Bool :=
  if b.inProgress then o.nchunksPerPart ≤ b.nfiles else 0 < b.nfiles

def AcqDir.isNonempty (ad : AcqDir) : Bool := ad.beamdirHash.any (fun x => x.2.isNonempty o)

def AcqInventory.isNonempty (a : AcqInventory) : Bool := a.acqdirHash.any (fun x => x.2.isNonempty o)

/-! ## Writing -/

/-- The calls of the writers.  `Stream` is what `rf_pipelines` makes of the names of data files. -/
inductive Op (Stream : Type)
  | pathExists (p : Path)
  | isdir (p : Path)
  | mkdir (p : Path)
  | streamFromFilenameList (filenames : List Filename)
  | jsonWrite (p : Path) (stream : Stream)
  | openForWriting (p : Path)
  | dump (p : Path) (runList : List (List Char × Filename))

variable {Stream : Type}

@[reducible]
def Op.Value : Op Stream → Type
  | .pathExists _             => Bool
  | .isdir _                  => Bool
  | .mkdir _                  => Unit
  | .streamFromFilenameList _ => Stream
  | .jsonWrite _ _            => Unit
  | .openForWriting _         => Unit
  | .dump _ _                 => Unit

abbrev Op.Result (op : Op Stream) : Type := Except Exn op.Value

abbrev Sys (Stream α : Type) := Prog (Op Stream) Op.Result Exn α

def ofExcept {α : Type} : Except Exn α → Sys Stream α
  | .ok a    => .ret a
  | .error e => .throw e

def call (op : Op Stream) : Sys Stream op.Value := .op op ofExcept

/-- `os.makedirs` -/
def makedirs : Path → Sys Stream Unit
  | []     => call (.mkdir [])
  | n :: q =>
    (call (.pathExists q)).bind (fun there : Bool =>
      (if there then .ret () else (makedirs q).tryCatch (fun e =>
        if e = .osError .exist then .ret () else .throw e)).bind (fun () =>
      call (.mkdir (n :: q))))

def xmakedirs (name : Path) : Sys Stream Unit :=
  (makedirs name).tryCatch (fun e =>
    if e = .osError .exist then (call (.isdir name)).bind (fun isdir : Bool =>
      if isdir then .ret () else .throw e)
    else .throw e)

def writeRunlist (jsonFilename : Path) (runList : List (List Char × Filename)) : Sys Stream Unit :=
  if runList.length = 0 then .ret ()
  else (call (.openForWriting jsonFilename)).bind (fun () => call (.dump jsonFilename runList))

/-- The body of the loop of `beamdir.write_json_files`. -/
def BeamDir.writePart (jsonDir : Path) (b : BeamDir) (nparts : Int) (ipart : Nat) : Sys Stream (List Char × Filename) :=
  (ofExcept (b.dataAbspathList o nparts ipart)).bind (fun filenames =>
  (call (.streamFromFilenameList filenames)).bind (fun stream =>
  (call (.jsonWrite (b.jsonBasename nparts ipart :: jsonDir) stream)).bind (fun () =>
  .ret (b.runName nparts ipart, b.jsonBasename nparts ipart))))

def BeamDir.writeJsonFiles (jsonDir : Path) (b : BeamDir) : Sys Stream (List (List Char × Filename)) :=
  (ofExcept (b.nparts R o)).bind (fun nparts => Prog.collect (b.writePart o jsonDir nparts) (List.range nparts.toNat))

def AcqDir.sorted (ad : AcqDir) : List (Nat × BeamDir) := ad.beamdirHash.insertionSort (fun x y => x.1 ≤ y.1)

def AcqDir.writeJsonFiles (jsonDir : Path) (ad : AcqDir) : Sys Stream (List (List Char × Filename)) :=
  (xmakedirs jsonDir).bind (fun () =>
  (Prog.collect (fun x => x.2.writeJsonFiles R o jsonDir) ad.sorted).bind (fun runlists =>
  (writeRunlist ((ad.acqdirBasename ++ "_runlist.json".toList) :: jsonDir) runlists.flatten).bind (fun () =>
  .ret runlists.flatten)))

/-- `s <= t`, of strings. -/
def strLe : List Char → List Char → Bool
  | [],     _      => true
  | _ :: _, []     => false
  | c :: s, d :: t => c.toNat < d.toNat || (c == d && strLe s t)

def AcqInventory.sorted (a : AcqInventory) : List (Filename × AcqDir) :=
  a.acqdirHash.insertionSort (fun x y => strLe x.1 y.1 = true)

/-- The master run list: the loop of `acq_inventory.write_json_files`. -/
def AcqInventory.masterRunList (jsonDir : Path) (a : AcqInventory) : Sys Stream (List (List Char × Filename)) :=
  (Prog.collect (fun x => (x.2.writeJsonFiles R o (x.1 :: jsonDir)).bind (fun runList =>
    .ret (runList.map (fun r => (r.1, join x.2.acqdirBasename r.2))))) a.sorted).bind (fun runLists =>
  .ret runLists.flatten)

def AcqInventory.writeJsonFiles (jsonDir : Path) (a : AcqInventory) : Sys Stream Unit :=
  (a.masterRunList R o jsonDir).bind (fun masterRunList =>
  writeRunlist ("master_runlist.json".toList :: jsonDir) masterRunList)

end Inventory
end FrbL1
