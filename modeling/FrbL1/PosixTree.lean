import Mathlib.Data.List.Basic
import Mathlib.Data.List.TakeWhile
/-!
# PosixTree — a directory tree with `stat`, `mkdir`, directory listing and writing of files

Each of the calls is one atomic operation on a tree (`Tree`), whose fields keep it well formed: the root is a
directory, and what exists is in a directory.  `fopen`, `fwrite` and `fclose` are one operation, which leaves nothing
behind if one of them fails.  A filename is resolved component by component (`walk`), `.`, `..` and empty components
included; it has no NUL, at which the calls would cut it, and there are no symbolic links.  What a call can meet besides
(permissions, a name that is too long, a read-only or full device) is a fixed part of the tree, a filename at a time:
`fault` is met by all the calls, `noCreate` by one that would create something, `noList` by a listing.

`Grows` is the way `mkdir` changes a tree: directories are added, at paths of a given set.
-/
namespace Posix

abbrev Filename := List Char

/-- A place in the tree: the components from the last to the first, so that the root is `[]`. -/
abbrev Path := List Filename

inductive Kind
  | dir
  | file (data : List UInt8)
  deriving DecidableEq, Repr

inductive Errno
  | noent
  | notdir
  | exist
  | other (text : List Char)
  deriving DecidableEq, Repr

def strerror : Errno → List Char
  | .noent      => "No such file or directory".toList
  | .notdir     => "Not a directory".toList
  | .exist      => "File exists".toList
  | .other text => text

structure Tree where
  entries  : List (Path × Kind)
  fault    : Filename → Option (List Char)
  noCreate : Filename → Option (List Char)
  noList   : Filename → Option (List Char)
  root     : entries.lookup [] = some .dir
  closed   : ∀ e ∈ entries, entries.lookup e.1.tail = some .dir

namespace Tree

instance : Inhabited Tree := ⟨[([], .dir)], fun _ => none, fun _ => none, fun _ => none, rfl, by decide⟩

def node (t : Tree) (q : Path) : Option Kind := t.entries.lookup q

theorem lookup_cons_dir (entries : List (Path × Kind)) (q p : Path) :
    ((q, Kind.dir) :: entries).lookup p = if p = q then some .dir else entries.lookup p := by
  rw [List.lookup_cons]
  by_cases h : p = q
  · simp [h]
  · simp [h, beq_eq_false_iff_ne.2 h]

def addDir (t : Tree) (n : Filename) (q : Path) (hq : t.node q = some .dir) : Tree where
  entries  := (n :: q, .dir) :: t.entries
  fault    := t.fault
  noCreate := t.noCreate
  noList   := t.noList
  root     := by
    rw [lookup_cons_dir]
    simpa using t.root
  closed   := fun e he => by
    rw [lookup_cons_dir]
    split
    · rfl
    · rcases List.mem_cons.1 he with rfl | he
      · exact hq
      · exact t.closed e he

theorem node_addDir (t : Tree) (n : Filename) (q : Path) (hq : t.node q = some .dir) (p : Path) :
    (t.addDir n q hq).node p = if p = n :: q then some .dir else t.node p := lookup_cons_dir t.entries (n :: q) p

def addFile (t : Tree) (n : Filename) (q : Path) (data : List UInt8) (hq : t.node q = some .dir)
    (hn : t.node (n :: q) ≠ some .dir) : Tree where
  entries  := (n :: q, .file data) :: t.entries
  fault    := t.fault
  noCreate := t.noCreate
  noList   := t.noList
  root     := by
    rw [List.lookup_cons, beq_eq_false_iff_ne.2 (List.cons_ne_nil n q).symm]
    exact t.root
  closed   := fun e he => by
    rcases List.mem_cons.1 he with rfl | he
    · rw [List.lookup_cons, beq_eq_false_iff_ne.2 (by simp)]
      exact hq
    · have hdir := t.closed e he
      have hne : e.1.tail ≠ n :: q := fun h => hn (h ▸ hdir)
      rw [List.lookup_cons, beq_eq_false_iff_ne.2 hne]
      exact hdir

theorem node_root (t : Tree) : t.node [] = some .dir := t.root

theorem node_tail (t : Tree) {q : Path} {k : Kind} (h : t.node q = some k) : t.node q.tail = some .dir := by
  obtain ⟨l₁, l₂, hl, -⟩ := List.lookup_eq_some_iff.1 h
  exact t.closed (q, k) (by rw [hl]; simp)

def children (t : Tree) (q : Path) : List Filename :=
  t.entries.filterMap (fun e => match e.1 with
    | n :: p => if p = q ∧ (t.node (n :: p)).isSome then some n else none
    | []     => none)

theorem mem_children (t : Tree) (q : Path) (n : Filename) : n ∈ t.children q ↔ t.node (n :: q) ≠ none := by
  unfold children
  rw [List.mem_filterMap]
  constructor
  · rintro ⟨⟨p, k⟩, -, h⟩
    cases p with
    | nil => cases h
    | cons m p =>
      simp only [Option.ite_none_right_eq_some, Option.some.injEq] at h
      obtain ⟨⟨rfl, hsome⟩, rfl⟩ := h
      exact Option.isSome_iff_ne_none.1 hsome
  · intro h
    obtain ⟨k, hk⟩ := Option.ne_none_iff_exists'.1 h
    obtain ⟨l₁, l₂, hl, -⟩ := List.lookup_eq_some_iff.1 hk
    exact ⟨(n :: q, k), by rw [hl]; simp, by simp [hk]⟩

/-! ## Resolving a filename -/

def next (q : Path) (c : Filename) : Path :=
  if c = [] ∨ c = ".".toList then q else if c = "..".toList then q.tail else c :: q

/-- Component by component, each in a directory; the last need not exist. -/
def walk (t : Tree) : Path → List Filename → Except Errno Path
  | q, []      => .ok q
  | q, c :: cs =>
    match t.node q with
    | none          => .error .noent
    | some (.file _) => .error .notdir
    | some .dir     => walk t (next q c) cs

def components (f : Filename) : List Filename := f.splitOn '/'

/-- Without empty components at the end: `mkdir` does not mind slashes there. -/
def stripSlashes (cs : List Filename) : List Filename := (cs.reverse.dropWhile (· = [])).reverse

/-! ## The calls -/

def stat (t : Tree) (f : Filename) : Except Errno Kind :=
  match t.fault f with
  | some e => .error (.other e)
  | none   =>
    if f = [] then .error .noent
    else match t.walk [] (components f) with
      | .error e => .error e
      | .ok q    => match t.node q with
        | none   => .error .noent
        | some k => .ok k

def mkdir (t : Tree) (f : Filename) : Except Errno Unit × Tree :=
  match t.fault f with
  | some e => (.error (.other e), t)
  | none   =>
    if f = [] then (.error .noent, t)
    else match t.walk [] (stripSlashes (components f)) with
      | .error e => (.error e, t)
      | .ok q    => match t.node q, t.noCreate f, q with
        | some _, _,      _      => (.error .exist, t)
        | none,   some e, _      => (.error (.other e), t)
        | none,   none,   []     => (.error .noent, t)
        | none,   none,   n :: q => if hq : t.node q = some .dir then (.ok (), t.addDir n q hq) else (.error .noent, t)

/-- `opendir` and `readdir` to the end, without `.` and `..`. -/
def list (t : Tree) (f : Filename) : Except Errno (List Filename) :=
  match t.fault f with
  | some e => .error (.other e)
  | none   =>
    if f = [] then .error .noent
    else match t.walk [] (components f) with
      | .error e => .error e
      | .ok q    => match t.node q, t.noList f with
        | none,           _      => .error .noent
        | some (.file _), _      => .error .notdir
        | some .dir,      some e => .error (.other e)
        | some .dir,      none   => .ok (t.children q)

/-- `fopen` for writing, `fwrite` and `fclose`. -/
def write (t : Tree) (f : Filename) (data : List UInt8) : Except Errno Unit × Tree :=
  match t.fault f with
  | some e => (.error (.other e), t)
  | none   =>
    if f = [] then (.error .noent, t)
    else match t.walk [] (components f) with
      | .error e => (.error e, t)
      | .ok q    => match t.node q, t.noCreate f with
        | none, some e => (.error (.other e), t)
        | _,    _      => match q with
          | []     => (.error (.other "Is a directory".toList), t)
          | n :: q =>
            if hn : t.node (n :: q) = some .dir then (.error (.other "Is a directory".toList), t)
            else if hq : t.node q = some .dir then (.ok (), t.addFile n q data hq hn)
            else (.error .noent, t)

end Tree

/-! ## The calls as operations -/

inductive Call
  | stat (f : Filename)
  | mkdir (f : Filename)
  | list (f : Filename)
  | write (f : Filename) (data : List UInt8)

def Call.Result : Call → Type
  | .stat _    => Except Errno Kind
  | .mkdir _   => Except Errno Unit
  | .list _    => Except Errno (List Filename)
  | .write _ _ => Except Errno Unit

def perform : (c : Call) → Tree → c.Result × Tree
  | .stat f,       t => (t.stat f, t)
  | .mkdir f,      t => t.mkdir f
  | .list f,       t => (t.list f, t)
  | .write f data, t => t.write f data

namespace Tree

/-! ## How `walk` depends on the tree -/

theorem walk_dir (t : Tree) {q : Path} (h : t.node q = some .dir) (c : Filename) (cs : List Filename) :
    t.walk q (c :: cs) = t.walk (next q c) cs := by
  rw [walk, h]

theorem walk_append (t : Tree) : ∀ (cs ds : List Filename) (q : Path),
    t.walk q (cs ++ ds) = match t.walk q cs with | .ok p => t.walk p ds | .error e => .error e
  | [], ds, q => rfl
  | c :: cs, ds, q => by
    rw [List.cons_append, walk, walk]
    cases t.node q with
    | none => rfl
    | some k =>
      cases k with
      | dir => exact walk_append t cs ds (next q c)
      | file d => rfl

theorem node_tail_of_walk (t : Tree) : ∀ (cs : List Filename) (q p : Path), t.node q.tail = some .dir →
    t.walk q cs = .ok p → t.node p.tail = some .dir
  | [], q, p, hq, h => by
    obtain rfl : q = p := by simpa [walk] using h
    exact hq
  | c :: cs, q, p, hq, h => by
    rw [walk] at h
    split at h
    · cases h
    · cases h
    · rename_i hdir
      refine node_tail_of_walk t cs (next q c) p ?_ h
      unfold next
      split
      · exact hq
      · split
        · exact t.node_tail hq
        · exact hdir

theorem stripSlashes_append (cs : List Filename) : ∃ m : Nat, cs = stripSlashes cs ++ List.replicate m [] := by
  refine ⟨(cs.reverse.takeWhile (· = [])).length, ?_⟩
  have hall : ∀ c ∈ cs.reverse.takeWhile (· = []), c = [] := fun c hc => by simpa using List.mem_takeWhile_imp hc
  have hrev := congrArg List.reverse
    (List.takeWhile_append_dropWhile (p := fun c : Filename => c = []) (l := cs.reverse))
  rw [List.reverse_append, List.reverse_reverse, List.eq_replicate_of_mem hall, List.reverse_replicate] at hrev
  simpa [stripSlashes] using hrev.symm

theorem stripSlashes_append_ne (cs : List Filename) {c : Filename} (hc : c ≠ []) :
    stripSlashes (cs ++ [c]) = cs ++ [c] := by
  simp [stripSlashes, hc]

theorem walk_empties (t : Tree) (q : Path) (hq : t.node q = some .dir) : ∀ m : Nat,
    t.walk q (List.replicate m []) = .ok q
  | 0 => rfl
  | m + 1 => by
    rw [List.replicate_succ, walk, hq]
    exact walk_empties t q hq m

theorem walk_empties_eq {t : Tree} {q : Path} {k : Kind} (hq : t.node q = some k) (m : Nat) :
    t.walk q (List.replicate m []) = if k = .dir ∨ m = 0 then .ok q else .error .notdir := by
  cases k with
  | dir =>
    rw [if_pos (.inl rfl)]
    exact walk_empties t q hq m
  | file data =>
    cases m with
    | zero =>
      rw [if_pos (.inr rfl)]
      rfl
    | succ m =>
      rw [if_neg (by simp), List.replicate_succ, walk, hq]

/-- Resolving a filename looks at the nodes only. -/
theorem walk_congr {t t' : Tree} (h : t'.node = t.node) : ∀ (cs : List Filename) (q : Path),
    t'.walk q cs = t.walk q cs
  | [], _ => rfl
  | c :: cs, q => by
    rw [walk, walk, h]
    split
    · rfl
    · rfl
    · exact walk_congr h cs (next q c)

theorem walk_errno (t : Tree) : ∀ (cs : List Filename) (q : Path) (e : Errno), t.walk q cs = .error e → e ≠ .exist
  | [], _, _, h => by cases h
  | c :: cs, q, e, h => by
    rw [walk] at h
    split at h
    · cases h; exact fun he => nomatch he
    · cases h; exact fun he => nomatch he
    · exact walk_errno t cs (next q c) e h

theorem stat_of_walk {t : Tree} {f : Filename} {q : Path} (hf : f ≠ []) (hw : t.walk [] (components f) = .ok q) :
    t.stat f = match t.fault f with
      | some e => .error (.other e)
      | none   => match t.node q with
        | none   => .error .noent
        | some k => .ok k := by
  unfold Tree.stat
  split
  · rfl
  · rw [if_neg hf, hw]

/-! ## What the calls do -/

theorem mkdir_fault {t : Tree} {f : Filename} {e : List Char} (h : t.fault f = some e) :
    t.mkdir f = (.error (.other e), t) := by
  unfold Tree.mkdir
  rw [h]

theorem mkdir_unresolved {t : Tree} {f : Filename} {e : Errno} (h : t.fault f = none) (hf : f ≠ [])
    (hw : t.walk [] (stripSlashes (components f)) = .error e) : t.mkdir f = (.error e, t) := by
  simp only [Tree.mkdir, h, if_neg hf, hw]

theorem mkdir_exists {t : Tree} {f : Filename} {q : Path} {k : Kind} (h : t.fault f = none) (hf : f ≠ [])
    (hw : t.walk [] (stripSlashes (components f)) = .ok q) (hk : t.node q = some k) :
    t.mkdir f = (.error .exist, t) := by
  simp only [Tree.mkdir, h, if_neg hf, hw, hk]

theorem mkdir_denied {t : Tree} {f : Filename} {q : Path} {e : List Char} (h : t.fault f = none) (hf : f ≠ [])
    (hw : t.walk [] (stripSlashes (components f)) = .ok q) (hn : t.node q = none) (he : t.noCreate f = some e) :
    t.mkdir f = (.error (.other e), t) := by
  simp only [Tree.mkdir, h, if_neg hf, hw, hn, he]

theorem mkdir_creates {t : Tree} {f : Filename} {n : Filename} {q : Path} (h : t.fault f = none) (hf : f ≠ [])
    (hw : t.walk [] (stripSlashes (components f)) = .ok (n :: q)) (hn : t.node (n :: q) = none)
    (he : t.noCreate f = none) (hq : t.node q = some .dir) : t.mkdir f = (.ok (), t.addDir n q hq) := by
  simp only [Tree.mkdir, h, if_neg hf, hw, hn, he, hq, dif_pos]

/-- A `mkdir` fails, or it makes what its filename resolves to. -/
theorem mkdir_cases (t : Tree) (f : Filename) : (∃ e, t.mkdir f = (.error e, t)) ∨
    ∃ n q hq, t.fault f = none ∧ f ≠ [] ∧ t.walk [] (stripSlashes (components f)) = .ok (n :: q) ∧
      t.node (n :: q) = none ∧ t.mkdir f = (.ok (), t.addDir n q hq) := by
  cases hfault : t.fault f with
  | some e => exact .inl ⟨_, mkdir_fault hfault⟩
  | none =>
    by_cases hf : f = []
    · exact .inl ⟨.noent, by simp only [Tree.mkdir, hfault, if_pos hf]⟩
    · cases hw : t.walk [] (stripSlashes (components f)) with
      | error e => exact .inl ⟨e, mkdir_unresolved hfault hf hw⟩
      | ok p =>
        cases hp : t.node p with
        | some k => exact .inl ⟨.exist, mkdir_exists hfault hf hw hp⟩
        | none =>
          cases he : t.noCreate f with
          | some e => exact .inl ⟨_, mkdir_denied hfault hf hw hp he⟩
          | none =>
            cases p with
            | nil => exact absurd (t.node_root.symm.trans hp) (fun h => nomatch h)
            | cons n q =>
              by_cases hq : t.node q = some .dir
              · exact .inr ⟨n, q, hq, rfl, hf, rfl, hp, mkdir_creates hfault hf hw hp he hq⟩
              · exact .inl ⟨.noent, by simp only [Tree.mkdir, hfault, if_neg hf, hw, hp, he, dif_neg hq]⟩

theorem list_of_walk {t : Tree} {f : Filename} {q : Path} (hf : f ≠ []) (hw : t.walk [] (components f) = .ok q)
    (hq : t.node q = some .dir) :
    t.list f = match t.fault f with
      | some e => .error (.other e)
      | none   => match t.noList f with
        | some e => .error (.other e)
        | none   => .ok (t.children q) := by
  unfold Tree.list
  split
  · rfl
  · rw [if_neg hf, hw]
    simp only [hq]
    cases t.noList f <;> rfl

/-! ## Growth -/

/-- Directories are added, at paths in `S`; nothing else changes. -/
structure Grows (S : Path → Prop) (t t' : Tree) : Prop where
  fault    : t'.fault = t.fault
  noCreate : t'.noCreate = t.noCreate
  noList   : t'.noList = t.noList
  keeps    : ∀ q k, t.node q = some k → t'.node q = some k
  adds     : ∀ q, t'.node q ≠ t.node q → S q ∧ t'.node q = some .dir

theorem Grows.refl (S : Path → Prop) (t : Tree) : Grows S t t :=
  ⟨rfl, rfl, rfl, fun _ _ h => h, fun _ h => absurd rfl h⟩

theorem Grows.trans {S : Path → Prop} {t₁ t₂ t₃ : Tree} (h : Grows S t₁ t₂) (h' : Grows S t₂ t₃) : Grows S t₁ t₃ where
  fault    := h'.fault.trans h.fault
  noCreate := h'.noCreate.trans h.noCreate
  noList   := h'.noList.trans h.noList
  keeps    := fun q k hk => h'.keeps q k (h.keeps q k hk)
  adds     := fun q hne => by
    by_cases h₂ : t₃.node q = t₂.node q
    · rw [h₂] at hne ⊢
      exact h.adds q hne
    · exact h'.adds q h₂

theorem Grows.mono {S S' : Path → Prop} {t t' : Tree} (h : Grows S t t') (hS : ∀ q, S q → S' q) : Grows S' t t' :=
  ⟨h.fault, h.noCreate, h.noList, h.keeps, fun q hne => ⟨hS q (h.adds q hne).1, (h.adds q hne).2⟩⟩

theorem Grows.node_eq {S : Path → Prop} {t t' : Tree} (h : Grows S t t') {q : Path} (hq : ¬ S q) :
    t'.node q = t.node q := by
  by_contra hne
  exact hq (h.adds q hne).1

theorem Grows.addDir {S : Path → Prop} (t : Tree) (n : Filename) (q : Path) (hq : t.node q = some .dir)
    (hn : t.node (n :: q) = none) (hS : S (n :: q)) : Grows S t (t.addDir n q hq) where
  fault    := rfl
  noCreate := rfl
  noList   := rfl
  keeps    := fun p k hk => by
    rw [node_addDir]
    split
    · rename_i hp
      rw [hp, hn] at hk
      cases hk
    · exact hk
  adds     := fun p hne => by
    rw [node_addDir] at hne ⊢
    split at hne
    · rename_i hp
      exact ⟨hp ▸ hS, if_pos hp⟩
    · exact absurd rfl hne

theorem Grows.addDir_both {S : Path → Prop} {t t' : Tree} (h : Grows S t t') {n : Filename} {q : Path}
    (hq : t.node q = some .dir) (hq' : t'.node q = some .dir) : Grows S (t.addDir n q hq) (t'.addDir n q hq') where
  fault    := h.fault
  noCreate := h.noCreate
  noList   := h.noList
  keeps    := fun p k hk => by
    rw [node_addDir] at hk ⊢
    split
    · rename_i hp; rwa [if_pos hp] at hk
    · rename_i hp
      rw [if_neg hp] at hk
      exact h.keeps p k hk
  adds     := fun p hne => by
    rw [node_addDir, node_addDir] at hne
    rw [node_addDir]
    by_cases hp : p = n :: q
    · simp [hp] at hne
    · rw [if_neg hp, if_neg hp] at hne
      rw [if_neg hp]
      exact h.adds p hne

/-- A tree that has grown by a directory that another one makes now. -/
theorem Grows.addDir_left {S : Path → Prop} {t t' : Tree} (h : Grows S t t') {n : Filename} {q : Path}
    (hq : t.node q = some .dir) (hnew : t'.node (n :: q) = some .dir) : Grows S (t.addDir n q hq) t' where
  fault    := h.fault
  noCreate := h.noCreate
  noList   := h.noList
  keeps    := fun p k hk => by
    rw [node_addDir] at hk
    split at hk
    · rename_i hp
      rw [hp, hnew, ← hk]
    · exact h.keeps p k hk
  adds     := fun p hne => by
    rw [node_addDir] at hne
    split at hne
    · rename_i hp
      exact absurd (hp ▸ hnew) hne
    · exact h.adds p hne

theorem Grows.walk {S : Path → Prop} {t t' : Tree} (h : Grows S t t') : ∀ (cs : List Filename) (q p : Path),
    t.walk q cs = .ok p → t'.walk q cs = .ok p
  | [], _, _, hw => hw
  | c :: cs, q, p, hw => by
    rw [Tree.walk] at hw ⊢
    split at hw
    · cases hw
    · cases hw
    · rename_i hdir
      rw [h.keeps q .dir hdir]
      exact Grows.walk h cs (next q c) p hw

theorem Grows.stat_eq {S : Path → Prop} {t t' : Tree} (h : Grows S t t') {f c₁ c₂ : Filename}
    (hc : components f = [[], c₁, c₂]) (h₁ : next [] c₁ = [c₁]) (h₂ : next [c₁] c₂ = [c₂, c₁])
    (hS : ¬ S [c₂, c₁]) : t'.stat f = t.stat f := by
  have hwalk : ∀ u : Tree, u.walk [] [[], c₁, c₂] = match u.node [c₁] with
      | none          => .error .noent
      | some (.file _) => .error .notdir
      | some .dir     => .ok [c₂, c₁] := by
    intro u
    rw [walk_dir u u.node_root, show next [] [] = [] from rfl, walk_dir u u.node_root, h₁]
    cases hn : u.node [c₁] with
    | none => simp only [Tree.walk, hn]
    | some k =>
      cases k with
      | dir => simp only [Tree.walk, hn, h₂]
      | file data => simp only [Tree.walk, hn]
  unfold Tree.stat
  rw [h.fault, hc, hwalk t, hwalk t']
  cases hn : t.node [c₁] with
  | some k =>
    rw [h.keeps _ k hn]
    cases k with
    | dir => simp only [h.node_eq hS]
    | file data => rfl
  | none =>
    have hnone : t'.node [c₂, c₁] = none := by
      rw [h.node_eq hS]
      cases hk : t.node [c₂, c₁] with
      | none => rfl
      | some k =>
        have hpar : t.node [c₁] = some .dir := t.node_tail hk
        rw [hn] at hpar
        cases hpar
    cases hn' : t'.node [c₁] with
    | none => rfl
    | some k =>
      have hk : t'.node [c₁] = some .dir := (h.adds [c₁] (by rw [hn, hn']; exact fun he => nomatch he)).2
      rw [hn'] at hk
      cases hk
      simp only [hnone]

end Tree

end Posix
