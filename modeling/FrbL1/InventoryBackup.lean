import FrbL1.AcqInventory
import FrbL1.PosixRename
/-!
# InventoryBackup — the old inventory, when a new one is written

The last part of `ch-frb-make-acq-inventory`: the old inventory is renamed, the new one is written, and where that
fails the old one is renamed back.  What can fail is every call of the writers, before it has done anything or while it
does it (`Failure`), besides what fails by itself.  `rename` puts a directory only where nothing is, or an empty
directory: so the old inventory is back only where the failure comes before the first acquisition has its directory.
-/
namespace FrbL1
namespace Inventory

open Posix (Filename Path Kind Errno Tree)
open Posix.Tree (Apart apart_cons)
open Conc (Prog)
open Conc.Prog (solo solo_bind solo_tryCatch solo_keeps solo_bind_of_ok solo_bind_of_error solo_tryCatch_of_ok
  solo_tryCatch_of_error)

/-! ## The calls on a tree -/

structure Env (Stream : Type) where
  streamFromFilenameList : List Filename → Except Exn Stream
  json                   : Stream → Except Exn (List UInt8)
  dumps                  : List (List Char × Filename) → Except Exn (List UInt8)

variable {Stream : Type} (E : Env Stream)

def raises (f : Errno → Exn) : Except Errno Unit × Tree → Except Exn Unit × Tree
  | (.ok (),   t) => (.ok (), t)
  | (.error e, t) => (.error (f e), t)

/-- The data, or the first `n` bytes of it, in a file. -/
def writeData (data : Except Exn (List UInt8)) (first : List UInt8 → List UInt8) (p : Path) (t : Tree) :
    Except Exn Unit × Tree :=
  match data with
  | .ok data => raises .ioError (t.writeAt (first data) p)
  | .error e => (.error e, t)

def perform : (op : Op Stream) → Tree → op.Result × Tree
  | .pathExists p,             t => (.ok (t.existsAt p), t)
  | .isdir p,                  t => (.ok (t.isDirAt p), t)
  | .mkdir p,                  t => raises .osError (t.mkdirAt p)
  | .streamFromFilenameList l, t => (E.streamFromFilenameList l, t)
  | .jsonWrite p stream,       t => writeData (E.json stream) id p t
  | .openForWriting p,         t => raises .ioError (t.writeAt [] p)
  | .dump p runList,           t => writeData (E.dumps runList) id p t

/-- What a call has done when it is interrupted: all, or with data the first `n` bytes. -/
def partway (n : Nat) : Op Stream → Tree → Tree
  | .mkdir p,            t => (t.mkdirAt p).2
  | .jsonWrite p stream, t => (writeData (E.json stream) (List.take n) p t).2
  | .openForWriting p,   t => (t.writeAt [] p).2
  | .dump p runList,     t => (writeData (E.dumps runList) (List.take n) p t).2
  | _,                   t => t

/-- How a call fails.  One that says `EEXIST` has made nothing. -/
inductive How
  | refused (e : Exn)
  | interrupted (n : Nat) (e : Exn) (h : e ≠ .osError .exist)

def How.exn : How → Exn
  | .refused e         => e
  | .interrupted _ e _ => e

/-- The call with this number fails, counted from 0. -/
structure Failure where
  index : Nat
  how   : How

def How.tree (how : How) (op : Op Stream) (t : Tree) : Tree :=
  match how with
  | .refused _         => t
  | .interrupted n _ _ => partway E n op t

/-- The calls, of which one may fail; they are counted. -/
def performUnless (failure : Option Failure) (op : Op Stream) (s : Tree × Nat) : op.Result × (Tree × Nat) :=
  match failure with
  | some f =>
    if f.index = s.2 then (.error f.how.exn, (f.how.tree E op s.1, s.2 + 1))
    else ((perform E op s.1).1, ((perform E op s.1).2, s.2 + 1))
  | none   => ((perform E op s.1).1, ((perform E op s.1).2, s.2 + 1))

/-! ## The script -/

structure Places where
  userDir : Path            -- `os.path.join(toplevel_dir, os.environ['USER'])`
  stamp   : List Char       -- `time.strftime('%y-%m-%d-%X')`

def Places.outputJsonDir (p : Places) : Path := "acq_json".toList :: p.userDir

def Places.backupJsonDir (p : Places) : Path := ("acq_json_deleteme_".toList ++ p.stamp) :: p.userDir

variable (R : Rounding) (o : Options) (failure : Option Failure) (a : AcqInventory) (p : Places)

/-- The old inventory is renamed; whether there was one is `backup_flag`. -/
def backUp (t : Tree) : Except Exn Bool × Tree :=
  if t.existsAt p.outputJsonDir then
    if t.existsAt p.backupJsonDir then (.error .assertionError, t)
    else
      match raises .osError (t.rename p.outputJsonDir p.backupJsonDir) with
      | (.error e, t') => (.error e, t')
      | (.ok (),   t') => if t'.existsAt p.outputJsonDir then (.error .assertionError, t') else (.ok true, t')
  else (.ok false, t)

def writeInventory (t : Tree) : Except Exn Unit × Tree :=
  let x := solo (performUnless E failure) (a.writeJsonFiles R o p.outputJsonDir) (t, 0)
  (x.1, x.2.1)

/-- The `except` branch, for the exception `e`. -/
def restore (backupFlag : Bool) (e : Exn) (t : Tree) : Exn × Tree :=
  if backupFlag then
    match raises .osError (t.rename p.backupJsonDir p.outputJsonDir) with
    | (.error e', t') => (e', t')
    | (.ok (),    t') => (e, t')
  else (e, t)

/-- The script, from the backup to the end of the `except` branch. -/
def replaceInventory (t : Tree) : Except Exn Unit × Tree :=
  match backUp p t with
  | (.error e,       t') => (.error e, t')
  | (.ok backupFlag, t') =>
    match writeInventory E R o failure a p t' with
    | (.ok (),   t'') => (.ok (), t'')
    | (.error e, t'') => let x := restore p backupFlag e t''; (.error x.1, x.2)

/-! ## What the calls keep -/

section
variable {E failure p}

theorem raises_snd (f : Errno → Exn) (x : Except Errno Unit × Tree) : (raises f x).2 = x.2 := by
  obtain ⟨r, t⟩ := x
  cases r <;> rfl

theorem writeData_keeps {q : Path} {t : Tree} (h : t.node q = some .dir) (data : Except Exn (List UInt8))
    (first : List UInt8 → List UInt8) (f : Path) : (writeData data first f t).2.node q = some .dir := by
  unfold writeData
  split
  · rw [raises_snd]
    exact Posix.Tree.writeAt_keeps h _ f
  · exact h

theorem perform_keeps {q : Path} {t : Tree} (h : t.node q = some .dir) (op : Op Stream) :
    (perform E op t).2.node q = some .dir := by
  cases op with
  | pathExists | isdir | streamFromFilenameList => exact h
  | mkdir f =>
    rw [perform, raises_snd]
    exact Posix.Tree.mkdirAt_keeps h f
  | openForWriting f =>
    rw [perform, raises_snd]
    exact Posix.Tree.writeAt_keeps h _ f
  | jsonWrite f stream => exact writeData_keeps h _ _ f
  | dump f runList => exact writeData_keeps h _ _ f

theorem partway_keeps {q : Path} {t : Tree} (h : t.node q = some .dir) (n : Nat) (op : Op Stream) :
    (partway E n op t).node q = some .dir := by
  cases op with
  | pathExists | isdir | streamFromFilenameList => exact h
  | mkdir f => exact Posix.Tree.mkdirAt_keeps h f
  | openForWriting f => exact Posix.Tree.writeAt_keeps h _ f
  | jsonWrite f stream => exact writeData_keeps h _ _ f
  | dump f runList => exact writeData_keeps h _ _ f

/-- **Directories stay**, whatever fails. -/
theorem performUnless_keeps {q : Path} (op : Op Stream) (s : Tree × Nat) (h : s.1.node q = some .dir) :
    (performUnless E failure op s).2.1.node q = some .dir := by
  unfold performUnless
  split
  · rename_i f
    split
    · unfold How.tree
      split
      · exact h
      · exact partway_keeps h _ op
    · exact perform_keeps h op
  · exact perform_keeps h op

/-! ## The first directory -/

theorem solo_ofExcept {α : Type} (x : Except Exn α) (s : Tree × Nat) :
    solo (performUnless E failure) (ofExcept x) s = (x, s) := by
  cases x <;> rfl

@[simp]
theorem solo_call (op : Op Stream) (s : Tree × Nat) :
    solo (performUnless E failure) (call op) s = performUnless E failure op s := solo_ofExcept _ _

theorem writeJsonFiles_begins {name : Filename} {ad : AcqDir} {rest : List (Filename × AcqDir)}
    (hsorted : a.sorted = (name, ad) :: rest) (jsonDir : Path) :
    ∃ k : Unit → Sys Stream Unit, a.writeJsonFiles R o jsonDir = (xmakedirs (name :: jsonDir)).bind k := by
  unfold AcqInventory.writeJsonFiles AcqInventory.masterRunList AcqDir.writeJsonFiles
  rw [hsorted]
  simp only [Prog.collect, Prog.bind_assoc]
  exact ⟨_, rfl⟩

/-- Before the first acquisition has its directory. -/
def Failure.Early (f : Failure) : Prop := f.index < 3 ∨ f.index = 3 ∧ ∃ e, f.how = .refused e

theorem performUnless_other {k : Nat} (h : ∀ f ∈ failure, f.index ≠ k) (op : Op Stream) (u : Tree) :
    performUnless E failure op (u, k) = ((perform E op u).1, ((perform E op u).2, k + 1)) := by
  unfold performUnless
  cases failure with
  | none => rfl
  | some f => exact if_neg (h f rfl)

theorem performUnless_fails (k : Nat) (how : How) (op : Op Stream) (u : Tree) :
    performUnless E (some ⟨k, how⟩) op (u, k) = (.error how.exn, (how.tree E op u, k + 1)) := if_pos rfl

variable (E failure) in
theorem performUnless_mkdir_fails {q : Path} {u : Tree} {errno : Errno} (h : u.mkdirAt q = (.error errno, u)) (k : Nat) :
    ∃ e, performUnless E failure (.mkdir q) (u, k) = (.error e, (u, k + 1)) := by
  have hperform : perform E (.mkdir q) u = (.error (.osError errno), u) := by rw [perform, h]; rfl
  unfold performUnless
  split
  · rename_i f
    split
    · refine ⟨f.how.exn, ?_⟩
      unfold How.tree
      split
      · rfl
      · rw [partway, h]
    · exact ⟨_, by rw [hperform]⟩
  · exact ⟨_, by rw [hperform]⟩

theorem xmakedirs_fails {q : Path} {s : Tree × Nat} {e : Exn} {u : Tree} {k : Nat}
    (h : solo (performUnless E failure) (makedirs q) s = (.error e, (u, k))) (hq : u.isDirAt q = false) :
    ∃ e' k', solo (performUnless E failure) (xmakedirs q) s = (.error e', (u, k')) := by
  rw [xmakedirs, solo_tryCatch_of_error _ h]
  split
  · rw [solo_bind, solo_call]
    by_cases hf : ∃ f, failure = some f ∧ f.index = k
    · obtain ⟨⟨index, how⟩, rfl, hk⟩ := hf
      obtain rfl : index = k := hk
      rw [performUnless_fails]
      refine ⟨how.exn, index + 1, ?_⟩
      cases how <;> rfl
    · rw [performUnless_other (fun f hf' hk => hf ⟨f, hf', hk⟩), perform, hq]
      exact ⟨_, _, rfl⟩
  · exact ⟨e, k, rfl⟩

section
variable {t : Tree} (hout : t.node p.outputJsonDir = none) (huser : t.node p.userDir = some .dir)

abbrev withOutput : Tree := t.addDir "acq_json".toList p.userDir huser

include huser in
theorem makedirs_output (h1 : ∀ f ∈ failure, f.index ≠ 1) : solo (performUnless E failure) (makedirs p.outputJsonDir) (t, 1) =
    performUnless E failure (.mkdir p.outputJsonDir) (t, 2) := by
  have hex : t.existsAt p.userDir = true := by simp [Posix.Tree.existsAt, huser]
  have hcall : solo (performUnless E failure) (call (.pathExists p.userDir)) (t, 1) = (.ok true, (t, 2)) := by
    rw [solo_call, performUnless_other h1, perform, hex]
  rw [Places.outputJsonDir, makedirs, solo_bind_of_ok hcall, if_pos rfl, Prog.bind, solo_call]

include hout

theorem mkdir_output : t.mkdirAt p.outputJsonDir = (.ok (), withOutput huser) :=
  Posix.Tree.mkdirAt_creates hout huser

theorem node_in_output (n : Filename) : t.node (n :: p.outputJsonDir) = none := by
  by_contra hne
  obtain ⟨k, hk⟩ := Option.ne_none_iff_exists'.1 hne
  have hdir : t.node p.outputJsonDir = some .dir := t.node_tail hk
  rw [hout] at hdir
  cases hdir

theorem node_in_withOutput (n : Filename) : (withOutput huser).node (n :: p.outputJsonDir) = none := by
  have hne : n :: p.outputJsonDir ≠ p.outputJsonDir := List.cons_ne_self _ _
  rw [Posix.Tree.node_addDir]
  exact (if_neg hne).trans (node_in_output hout n)

theorem pathExists_output (h0 : ∀ f ∈ failure, f.index ≠ 0) :
    solo (performUnless E failure) (call (.pathExists p.outputJsonDir)) (t, 0) = (.ok false, (t, 1)) := by
  rw [solo_call, performUnless_other h0, perform]
  simp [Posix.Tree.existsAt, hout]

theorem makedirs_acq (h0 : ∀ f ∈ failure, f.index ≠ 0) (h1 : ∀ f ∈ failure, f.index ≠ 1)
    (h2 : ∀ f ∈ failure, f.index ≠ 2) (name : Filename) :
    solo (performUnless E failure) (makedirs (name :: p.outputJsonDir)) (t, 0) =
      performUnless E failure (.mkdir (name :: p.outputJsonDir)) (withOutput huser, 3) := by
  have hmk : solo (performUnless E failure) (makedirs p.outputJsonDir) (t, 1) = (.ok (), (withOutput huser, 3)) := by
    rw [makedirs_output huser h1, performUnless_other h2, perform, mkdir_output hout huser]
    rfl
  rw [makedirs, solo_bind_of_ok (pathExists_output hout h0), if_neg Bool.false_ne_true,
    solo_bind_of_ok (solo_tryCatch_of_ok _ hmk), solo_call]

/-- A failure on the way to the inventory's own directory: what is raised goes on, or a `mkdir` without the directory
around it fails. -/
theorem makedirs_acq_fails {e : Exn} {u : Tree} {k : Nat} (h0 : ∀ f ∈ failure, f.index ≠ 0)
    (h : solo (performUnless E failure) (makedirs p.outputJsonDir) (t, 1) = (.error e, (u, k)))
    (hu : e ≠ .osError .exist ∨ u = t) (name : Filename) :
    ∃ e' k', solo (performUnless E failure) (makedirs (name :: p.outputJsonDir)) (t, 0) = (.error e', (u, k')) := by
  rw [makedirs, solo_bind_of_ok (pathExists_output hout h0), if_neg Bool.false_ne_true]
  by_cases he : e = .osError .exist
  · obtain rfl := hu.resolve_left (not_not.2 he)
    have hcaught : solo (performUnless E failure) ((makedirs p.outputJsonDir).tryCatch (fun e =>
        if e = .osError .exist then .ret () else .throw e)) (u, 1) = (.ok (), (u, k)) := by
      rw [solo_tryCatch_of_error _ h, if_pos he]
      rfl
    have hmk : u.mkdirAt (name :: p.outputJsonDir) = (.error (u.missing (name :: p.outputJsonDir)), u) := by
      simp [Posix.Tree.mkdirAt, node_in_output hout, hout]
    obtain ⟨e', he'⟩ := performUnless_mkdir_fails E failure hmk k
    exact ⟨e', k + 1, by rw [solo_bind_of_ok hcaught, solo_call, he']⟩
  · have hthrown : solo (performUnless E failure) ((makedirs p.outputJsonDir).tryCatch (fun e =>
        if e = .osError .exist then .ret () else .throw e)) (t, 1) = (.error e, (u, k)) := by
      rw [solo_tryCatch_of_error _ h, if_neg he]
      rfl
    exact ⟨e, k, solo_bind_of_error hthrown⟩

theorem xmakedirs_early {f : Failure} (hf : f.Early) (name : Filename) :
    ∃ e u k, solo (performUnless E (some f)) (xmakedirs (name :: p.outputJsonDir)) (t, 0) = (.error e, (u, k)) ∧
      (u = t ∨ u = withOutput huser) := by
  have hnew : ∀ u, u = t ∨ u = withOutput huser → u.isDirAt (name :: p.outputJsonDir) = false := by
    rintro u (rfl | rfl)
    · simp [Posix.Tree.isDirAt, node_in_output hout]
    · simp [Posix.Tree.isDirAt, node_in_withOutput hout huser]
  have hfails : ∀ e u k, solo (performUnless E (some f)) (makedirs (name :: p.outputJsonDir)) (t, 0) = (.error e, (u, k)) →
      (u = t ∨ u = withOutput huser) → ∃ e u k, solo (performUnless E (some f)) (xmakedirs (name :: p.outputJsonDir))
        (t, 0) = (.error e, (u, k)) ∧ (u = t ∨ u = withOutput huser) := by
    intro e u k h hu
    obtain ⟨e', k', h'⟩ := xmakedirs_fails h (hnew u hu)
    exact ⟨e', u, k', h', hu⟩
  obtain ⟨index, how⟩ := f
  have hcases : index = 0 ∨ index = 1 ∨ index = 2 ∨ index = 3 ∧ ∃ e, how = .refused e := by
    rcases hf with h | ⟨h, he⟩
    · have h' : index < 3 := h
      omega
    · exact .inr (.inr (.inr ⟨h, he⟩))
  rcases hcases with rfl | rfl | rfl | ⟨rfl, e, rfl⟩
  · refine hfails how.exn t 1 ?_ (.inl rfl)
    rw [makedirs]
    refine solo_bind_of_error ?_
    rw [solo_call, performUnless_fails]
    cases how <;> rfl
  · have hcall : solo (performUnless E (some ⟨1, how⟩)) (makedirs p.outputJsonDir) (t, 1) = (.error how.exn, (t, 2)) := by
      rw [Places.outputJsonDir, makedirs]
      refine solo_bind_of_error ?_
      rw [solo_call, performUnless_fails]
      cases how <;> rfl
    obtain ⟨e', k', h⟩ := makedirs_acq_fails hout (by simp) hcall (.inr rfl) name
    exact hfails e' t k' h (.inl rfl)
  · have hcall : solo (performUnless E (some ⟨2, how⟩)) (makedirs p.outputJsonDir) (t, 1) =
        (.error how.exn, (how.tree E (.mkdir p.outputJsonDir) t, 3)) := by
      rw [makedirs_output huser (by simp), performUnless_fails]
    cases how with
    | refused e =>
      obtain ⟨e', k', h⟩ := makedirs_acq_fails hout (by simp) hcall (.inr rfl) name
      exact hfails e' t k' h (.inl rfl)
    | interrupted n e he =>
      obtain ⟨e', k', h⟩ := makedirs_acq_fails hout (by simp) hcall (.inl he) name
      refine hfails e' _ k' h (.inr ?_)
      rw [How.tree, partway, mkdir_output hout huser]
  · refine hfails e (withOutput huser) 4 ?_ (.inr rfl)
    rw [makedirs_acq hout huser (by simp) (by simp) (by simp), performUnless_fails]
    rfl

include huser in
theorem xmakedirs_late (hlate : ¬ ∃ f, failure = some f ∧ f.Early) (name : Filename) :
    (solo (performUnless E failure) (xmakedirs (name :: p.outputJsonDir)) (t, 0)).2.1.node (name :: p.outputJsonDir) =
      some .dir := by
  have hindex : ∀ f ∈ failure, 3 ≤ f.index := fun f hf => Nat.not_lt.1 (fun h => hlate ⟨f, hf, .inl h⟩)
  have hnode := node_in_withOutput hout huser name
  have hdir : (withOutput huser).node p.outputJsonDir = some .dir := by
    rw [Posix.Tree.node_addDir]
    exact if_pos rfl
  have hmade : ((withOutput huser).mkdirAt (name :: p.outputJsonDir)).2.node (name :: p.outputJsonDir) = some .dir := by
    rw [Posix.Tree.mkdirAt_creates hnode hdir, Posix.Tree.node_addDir, if_pos rfl]
  have hmk : (solo (performUnless E failure) (makedirs (name :: p.outputJsonDir)) (t, 0)).2.1.node
      (name :: p.outputJsonDir) = some .dir := by
    have hlt : ∀ i < 3, ∀ f ∈ failure, f.index ≠ i := fun i hi f hf => by
      have := hindex f hf
      omega
    rw [makedirs_acq hout huser (hlt 0 (by decide)) (hlt 1 (by decide)) (hlt 2 (by decide))]
    unfold performUnless
    split
    · rename_i f
      split
      · rename_i h3
        cases hhow : f.how with
        | refused e => exact absurd ⟨f, rfl, .inr ⟨h3, e, hhow⟩⟩ hlate
        | interrupted n e he => exact hmade
      · rw [perform, raises_snd]
        exact hmade
    · rw [perform, raises_snd]
      exact hmade
  rw [xmakedirs, solo_tryCatch]
  generalize solo (performUnless E failure) (makedirs (name :: p.outputJsonDir)) (t, 0) = x at hmk
  obtain ⟨r, s⟩ := x
  cases r with
  | ok _ => exact hmk
  | error e => exact solo_keeps performUnless_keeps _ _ hmk

end

end

/-! ## Back again -/

section
variable {R o failure a p E}

theorem apart_places : Apart p.outputJsonDir p.backupJsonDir := by
  refine apart_cons (fun h => ?_) p.userDir
  have hlen := congrArg List.length h
  simp at hlen

variable {t : Tree}

theorem userDir_of_output (h : t.node p.outputJsonDir = some .dir) : t.node p.userDir = some .dir := t.node_tail h

def backedUp (huser : t.node p.userDir = some .dir) : Tree := t.move p.outputJsonDir p.backupJsonDir apart_places huser

theorem node_backedUp (huser : t.node p.userDir = some .dir) (q : Path) : (backedUp huser).node q =
    (Posix.Tree.relocate p.backupJsonDir p.outputJsonDir q).bind t.node := Posix.Tree.node_move apart_places huser q

theorem output_backedUp (huser : t.node p.userDir = some .dir) : (backedUp huser).node p.outputJsonDir = none := by
  rw [node_backedUp, Posix.Tree.relocate_gone_self apart_places.symm]
  rfl

theorem backup_backedUp (huser : t.node p.userDir = some .dir) (r : Path) :
    (backedUp huser).node (r ++ p.backupJsonDir) = t.node (r ++ p.outputJsonDir) := by
  rw [node_backedUp, Posix.Tree.relocate_under]
  rfl

theorem userDir_backedUp (huser : t.node p.userDir = some .dir) : (backedUp huser).node p.userDir = some .dir := by
  have hshort : ∀ n : Filename, ¬ n :: p.userDir <:+ p.userDir := fun n hs => Nat.not_succ_le_self _ hs.length_le
  have helse : Posix.Tree.relocate p.backupJsonDir p.outputJsonDir p.userDir = some p.userDir :=
    Posix.Tree.relocate_else (hshort _) (hshort _)
  rw [node_backedUp, helse]
  exact huser

theorem backUp_ok (hold : t.node p.outputJsonDir = some .dir) (hnew : t.node p.backupJsonDir = none) :
    backUp p t = (.ok true, backedUp (userDir_of_output hold)) := by
  have hrename : t.rename p.outputJsonDir p.backupJsonDir = (.ok (), backedUp (userDir_of_output hold)) :=
    Posix.Tree.rename_dir apart_places hold (userDir_of_output hold) (.inl hnew)
  simp [backUp, Posix.Tree.existsAt, hold, hnew, hrename, raises, output_backedUp]

/-- **Restored**: the old inventory is where it was, the backup is gone and the exception goes on. -/
def Restored (p : Places) (t : Tree) (e : Exn) (x : Except Exn Unit × Tree) : Prop :=
  x.1 = .error e ∧ (∀ r, x.2.node (r ++ p.outputJsonDir) = t.node (r ++ p.outputJsonDir)) ∧
    x.2.node p.backupJsonDir = none

theorem restore_ok (huser : t.node p.userDir = some .dir) (hold : t.node p.outputJsonDir = some .dir) {u : Tree}
    (hu : u = backedUp huser ∨ u = withOutput (userDir_backedUp huser)) (e : Exn) :
    Restored p t e (.error (restore p true e u).1, (restore p true e u).2) := by
  have hbackup : ∀ r, u.node (r ++ p.backupJsonDir) = t.node (r ++ p.outputJsonDir) := by
    intro r
    rcases hu with rfl | rfl
    · exact backup_backedUp huser r
    · have hne : r ++ p.backupJsonDir ≠ p.outputJsonDir := fun h => apart_places.2 ⟨r, h⟩
      rw [Posix.Tree.node_addDir]
      exact (if_neg hne).trans (backup_backedUp huser r)
  have hdir : u.node p.backupJsonDir = some .dir := (hbackup []).trans hold
  have huser' : u.node p.userDir = some .dir := u.node_tail hdir
  have hfree : u.node p.outputJsonDir = none ∨ u.node p.outputJsonDir = some .dir ∧ u.children p.outputJsonDir = [] := by
    rcases hu with rfl | rfl
    · exact .inl (output_backedUp huser)
    · refine .inr ⟨?_, Posix.Tree.children_eq_nil.2 (fun n => ?_)⟩
      · rw [Posix.Tree.node_addDir]
        exact if_pos rfl
      · have hne : n :: p.outputJsonDir ≠ p.outputJsonDir := List.cons_ne_self _ _
        rw [Posix.Tree.node_addDir]
        exact (if_neg hne).trans (node_in_output (output_backedUp huser) n)
  have hrename := Posix.Tree.rename_dir apart_places.symm hdir huser' hfree
  have hrestore : restore p true e u = (e, u.move p.backupJsonDir p.outputJsonDir apart_places.symm huser') := by
    simp [restore, hrename, raises]
  rw [hrestore]
  refine ⟨rfl, fun r => ?_, ?_⟩
  · refine (Posix.Tree.node_move apart_places.symm huser' _).trans ?_
    rw [Posix.Tree.relocate_under]
    exact hbackup r
  · refine (Posix.Tree.node_move apart_places.symm huser' _).trans ?_
    rw [Posix.Tree.relocate_gone_self apart_places]
    rfl

theorem restore_full {n : Filename} (hn : t.node (n :: p.outputJsonDir) = some .dir)
    (hbackup : t.node p.backupJsonDir = some .dir) (e : Exn) :
    restore p true e t = (.osError (.other "Directory not empty".toList), t) := by
  have hout : t.node p.outputJsonDir = some .dir := t.node_tail hn
  have hrename := Posix.Tree.rename_full (n := n) apart_places.symm hbackup hout (by rw [hn]; exact Option.some_ne_none _)
  simp [restore, hrename, raises]

/-! ## When the old inventory is back -/

variable (R o failure a E) in
/-- **The old inventory is back only after an early failure**: for an inventory with something in it, and a directory of
the old one, where writing the new one raises `e`. -/
theorem restored_iff_early (hnonempty : a.isNonempty o = true) (hold : t.node p.outputJsonDir = some .dir)
    (hnew : t.node p.backupJsonDir = none) {e : Exn} {u : Tree}
    (hraise : writeInventory E R o failure a p (backUp p t).2 = (.error e, u)) :
    Restored p t e (replaceInventory E R o failure a p t) ↔ ∃ f, failure = some f ∧ f.Early := by
  have huser : t.node p.userDir = some .dir := userDir_of_output hold
  have hreplace : replaceInventory E R o failure a p t = (.error (restore p true e u).1, (restore p true e u).2) := by
    rw [backUp_ok hold hnew] at hraise
    simp only [replaceInventory, backUp_ok hold hnew, hraise]
  -- the writers begin with the directory of some acquisition
  obtain ⟨name, ad, rest, hsorted⟩ : ∃ name ad rest, a.sorted = (name, ad) :: rest := by
    obtain ⟨x, hx, -⟩ := List.any_eq_true.1 hnonempty
    have hx' : x ∈ a.sorted := (List.mem_insertionSort _).2 hx
    cases hs : a.sorted with
    | nil => rw [hs] at hx'; cases hx'
    | cons y rest => exact ⟨y.1, y.2, rest, rfl⟩
  obtain ⟨k, hk⟩ : ∃ k : Unit → Sys Stream Unit, a.writeJsonFiles R o p.outputJsonDir =
      (xmakedirs (name :: p.outputJsonDir)).bind k := writeJsonFiles_begins R o a hsorted p.outputJsonDir
  rw [backUp_ok hold hnew] at hraise
  simp only [writeInventory, hk, Prod.mk.injEq] at hraise
  obtain ⟨hr, hu⟩ := hraise
  rw [hreplace]
  constructor
  · intro hrest
    by_contra hlate
    have hacq : u.node (name :: p.outputJsonDir) = some .dir := by
      have hfirst := xmakedirs_late (E := E) (output_backedUp huser) (userDir_backedUp huser) hlate name
      rw [← hu, solo_bind]
      generalize solo (performUnless E failure) (xmakedirs (name :: p.outputJsonDir)) (backedUp huser, 0) = x at hfirst
      obtain ⟨r, s⟩ := x
      cases r with
      | ok _ => exact solo_keeps performUnless_keeps _ _ hfirst
      | error e => exact hfirst
    have hbackup : u.node p.backupJsonDir = some .dir := by
      rw [← hu]
      exact solo_keeps performUnless_keeps _ _ ((backup_backedUp huser []).trans hold)
    rw [restore_full hacq hbackup] at hrest
    obtain ⟨-, -, hgone⟩ := hrest
    rw [hbackup] at hgone
    cases hgone
  · rintro ⟨f, rfl, hf⟩
    obtain ⟨e', u', k', hfail, hu'⟩ := xmakedirs_early (E := E) (output_backedUp huser) (userDir_backedUp huser) hf name
    rw [solo_bind_of_error hfail] at hr hu
    cases hr
    subst hu
    exact restore_ok huser hold hu' e

/-! An acquisition of one file, and a user with an old inventory. -/

def oneFile : AcqInventory :=
  ⟨[("run_1".toList, ⟨"run_1".toList, "/local/acq_data/run_1".toList,
    [(7, ⟨7, "run_1".toList, "/local/acq_data/run_1/beam_0007".toList, ["chunk_00000001.msg".toList], false, 0⟩)],
    false, 0⟩)]⟩

def partsOfAnHour : Options := ⟨.ssd, 3600, 600, by decide, by decide⟩

def oldPlaces : Places := ⟨["user".toList, "local".toList], "26-10-10-12:00:00".toList⟩

def oldTree : Tree where
  entries  := [("master_runlist.json".toList :: oldPlaces.outputJsonDir, .file [91, 93]), (oldPlaces.outputJsonDir, .dir),
    (oldPlaces.userDir, .dir), (["local".toList], .dir), ([], .dir)]
  fault    := fun _ => none
  noCreate := fun _ => none
  noList   := fun _ => none
  root     := by decide
  closed   := by decide

def emptyStreams : Env Unit := ⟨fun _ => .ok (), fun _ => .ok [], fun _ => .ok []⟩

def noSpace : Errno := .other "No space left on device".toList

theorem writeInventory_raises {Stream : Type} {E : Env Stream} {R : Rounding} {o : Options} {failure : Option Failure}
    {a : AcqInventory} {p : Places} {t : Tree} {e : Exn} (h : (writeInventory E R o failure a p t).1 = .error e) :
    writeInventory E R o failure a p t = (.error e, (writeInventory E R o failure a p t).2) := Prod.ext h rfl

theorem restored_iff_early_old :
    Restored oldPlaces oldTree (.osError noSpace) (replaceInventory emptyStreams inDoubles partsOfAnHour
      (some ⟨3, .refused (.osError noSpace)⟩) oneFile oldPlaces oldTree) := by
  have hfails : (writeInventory emptyStreams inDoubles partsOfAnHour (some ⟨3, .refused (.osError noSpace)⟩) oneFile
      oldPlaces (backUp oldPlaces oldTree).2).1 = .error (.osError noSpace) := by decide +kernel
  have hraise := writeInventory_raises hfails
  exact (restored_iff_early emptyStreams inDoubles partsOfAnHour _ oneFile (by decide +kernel) (by decide +kernel)
    (by decide +kernel) hraise).2 ⟨_, rfl, .inr ⟨rfl, _, rfl⟩⟩

/-- **An old inventory that is not restored**: there is no space when the run list of the acquisition is opened, and the
directory that is there by then keeps the backup from being renamed. -/
theorem old_inventory_not_restored :
    oneFile.isNonempty partsOfAnHour = true ∧ oldTree.node oldPlaces.outputJsonDir = some .dir ∧
    oldTree.node oldPlaces.backupJsonDir = none ∧
    (writeInventory emptyStreams inDoubles partsOfAnHour (some ⟨6, .refused (.ioError noSpace)⟩) oneFile oldPlaces
      (backUp oldPlaces oldTree).2).1 = .error (.ioError noSpace) ∧
    ¬ Restored oldPlaces oldTree (.ioError noSpace) (replaceInventory emptyStreams inDoubles partsOfAnHour
      (some ⟨6, .refused (.ioError noSpace)⟩) oneFile oldPlaces oldTree) := by
  have hnot : (replaceInventory emptyStreams inDoubles partsOfAnHour (some ⟨6, .refused (.ioError noSpace)⟩) oneFile
      oldPlaces oldTree).1 = .error (.osError (.other "Directory not empty".toList)) := by decide +kernel
  refine ⟨by decide +kernel, by decide +kernel, by decide +kernel, by decide +kernel, fun h => ?_⟩
  rw [h.1] at hnot
  exact absurd hnot (by decide)

end

end Inventory
end FrbL1
