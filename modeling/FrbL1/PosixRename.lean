import FrbL1.PosixTree
/-!
# PosixRename — the calls at places, and `rename`

Calls on places of a tree, for filenames that resolve to themselves.  `move` puts what is at a place, with all that is
under it, at another place; `rename` does so where POSIX allows it: a directory may replace an empty directory, and
nothing else.
-/
namespace Posix
namespace Tree

variable {t : Tree}

/-! ## Places -/

def existsAt (t : Tree) (p : Path) : Bool := (t.node p).isSome

def isDirAt (t : Tree) (p : Path) : Bool := t.node p = some .dir

def missing (t : Tree) : Path → Errno
  | []     => .noent
  | _ :: q =>
    match t.node q with
    | some (.file _) => .notdir
    | some .dir      => .noent
    | none           => t.missing q

def mkdirAt (t : Tree) : Path → Except Errno Unit × Tree
  | []     => (.error .exist, t)
  | n :: q =>
    if (t.node (n :: q)).isSome then (.error .exist, t)
    else if hq : t.node q = some .dir then (.ok (), t.addDir n q hq)
    else (.error (t.missing (n :: q)), t)

def writeAt (t : Tree) (data : List UInt8) : Path → Except Errno Unit × Tree
  | []     => (.error (.other "Is a directory".toList), t)
  | n :: q =>
    if hn : t.node (n :: q) = some .dir then (.error (.other "Is a directory".toList), t)
    else if hq : t.node q = some .dir then (.ok (), t.addFile n q data hq hn)
    else (.error (t.missing (n :: q)), t)

theorem mkdirAt_creates {n : Filename} {q : Path} (hn : t.node (n :: q) = none) (hq : t.node q = some .dir) :
    t.mkdirAt (n :: q) = (.ok (), t.addDir n q hq) := by
  simp [mkdirAt, hn, hq]

theorem node_addFile (n : Filename) (q : Path) (data : List UInt8) (hq : t.node q = some .dir)
    (hn : t.node (n :: q) ≠ some .dir) (p : Path) :
    (t.addFile n q data hq hn).node p = if p = n :: q then some (.file data) else t.node p := by
  show ((n :: q, Kind.file data) :: t.entries).lookup p = _
  rw [List.lookup_cons]
  by_cases h : p = n :: q
  · simp [h]
  · rw [beq_eq_false_iff_ne.2 h, if_neg h]
    rfl

theorem mkdirAt_keeps {p : Path} (h : t.node p = some .dir) (q : Path) : (t.mkdirAt q).2.node p = some .dir := by
  cases q with
  | nil => exact h
  | cons n q =>
    rw [mkdirAt]
    split
    · exact h
    · split
      · rw [node_addDir]
        split
        · rfl
        · exact h
      · exact h

theorem writeAt_keeps {p : Path} (h : t.node p = some .dir) (data : List UInt8) (q : Path) :
    (t.writeAt data q).2.node p = some .dir := by
  cases q with
  | nil => exact h
  | cons n q =>
    rw [writeAt]
    split
    · exact h
    · rename_i hn
      split
      · have hne : p ≠ _ :: _ := fun hp => hn (hp ▸ h)
        simpa [node_addFile, hne] using h
      · exact h

/-! ## Moving -/

/-- Neither is the other, nor in the other. -/
def Apart (a b : Path) : Prop := ¬ a <:+ b ∧ ¬ b <:+ a

instance decidableApart (a b : Path) : Decidable (Apart a b) := inferInstanceAs (Decidable (_ ∧ _))

theorem Apart.symm {a b : Path} (h : Apart a b) : Apart b a := ⟨h.2, h.1⟩

theorem apart_cons {m n : Filename} (h : m ≠ n) (q : Path) : Apart (m :: q) (n :: q) := by
  have hne : ∀ m n : Filename, m ≠ n → ¬ m :: q <:+ n :: q := fun m n h hs =>
    h (List.cons.inj (hs.eq_of_length rfl)).1
  exact ⟨hne m n h, hne n m h.symm⟩

/-- Where a place goes when `a` becomes `b`. -/
def relocate (a b p : Path) : Option Path :=
  if a <:+ p then some (p.take (p.length - a.length) ++ b) else if b <:+ p then none else some p

theorem relocate_under (a b r : Path) : relocate a b (r ++ a) = some (r ++ b) := by
  simp [relocate]

theorem relocate_gone {a b r : Path} (h : Apart a b) : relocate a b (r ++ b) = none := by
  have hab : ¬ a <:+ r ++ b := fun hs => (List.suffix_or_suffix_of_suffix hs (List.suffix_append r b)).elim h.1 h.2
  simp [relocate, hab]

theorem relocate_gone_self {a b : Path} (h : Apart a b) : relocate a b b = none := by
  have hgone := relocate_gone (r := []) h
  rwa [List.nil_append] at hgone

theorem relocate_else {a b p : Path} (ha : ¬ a <:+ p) (hb : ¬ b <:+ p) : relocate a b p = some p := by
  simp [relocate, ha, hb]

theorem relocate_inverse {a b : Path} (h : Apart a b) {p q : Path} (hr : relocate a b q = some p) :
    relocate b a p = some q := by
  by_cases ha : a <:+ q
  · obtain ⟨r, rfl⟩ := ha
    rw [relocate_under] at hr
    cases hr
    exact relocate_under b a r
  · by_cases hb : b <:+ q
    · obtain ⟨r, rfl⟩ := hb
      rw [relocate_gone h] at hr
      cases hr
    · rw [relocate_else ha hb] at hr
      cases hr
      exact relocate_else hb ha

def relocated (entries : List (Path × Kind)) (a b : Path) : List (Path × Kind) :=
  entries.filterMap (fun e => (relocate a b e.1).map (fun p => (p, e.2)))

theorem lookup_relocated {a b : Path} (h : Apart a b) (p : Path) : ∀ entries : List (Path × Kind),
    (relocated entries a b).lookup p = (relocate b a p).bind (fun q => entries.lookup q)
  | [] => by cases relocate b a p <;> rfl
  | (q₀, k) :: entries => by
    have ih := lookup_relocated h p entries
    unfold relocated at ih ⊢
    cases he : relocate a b q₀ with
    | none =>
      rw [List.filterMap_cons_none (by rw [he]; rfl), ih]
      cases hp : relocate b a p with
      | none => rfl
      | some q =>
        have hq : relocate a b q = some p := relocate_inverse h.symm hp
        have hne : q ≠ q₀ := fun hqe => by rw [hqe, he] at hq; cases hq
        simp [List.lookup_cons, beq_eq_false_iff_ne.2 hne]
    | some p' =>
      rw [List.filterMap_cons_some (by rw [he]; rfl), List.lookup_cons, ih]
      by_cases hp : p = p'
      · subst hp
        simp [relocate_inverse h he, List.lookup_cons]
      · rw [beq_eq_false_iff_ne.2 hp]
        cases hq : relocate b a p with
        | none => rfl
        | some q =>
          have hne : q ≠ q₀ := fun hqe => by
            have hp' := relocate_inverse h.symm hq
            rw [hqe, he] at hp'
            exact hp (Option.some.inj hp').symm
          simp [List.lookup_cons, beq_eq_false_iff_ne.2 hne]

/-- What is at `a` is at `b`, where there was nothing that matters. -/
def move (t : Tree) (a b : Path) (h : Apart a b) (hb : t.node b.tail = some .dir) : Tree where
  entries  := relocated t.entries a b
  fault    := t.fault
  noCreate := t.noCreate
  noList   := t.noList
  root     := by
    have ha : ¬ a <:+ [] := fun hs => h.1 (List.suffix_nil.1 hs ▸ List.nil_suffix)
    have hb : ¬ b <:+ [] := fun hs => h.2 (List.suffix_nil.1 hs ▸ List.nil_suffix)
    rw [lookup_relocated h, relocate_else hb ha]
    exact t.root
  closed   := fun e he => by
    rw [lookup_relocated h]
    obtain ⟨⟨q, k⟩, hq, he⟩ := List.mem_filterMap.1 he
    obtain ⟨p, hp, rfl⟩ := Option.map_eq_some_iff.1 he
    have hdir : t.node q.tail = some .dir := t.closed (q, k) hq
    by_cases ha : a <:+ q
    · obtain ⟨r, rfl⟩ := ha
      rw [relocate_under] at hp
      cases hp
      cases r with
      | nil =>
        have hb' : ¬ b <:+ b.tail := fun hs => by
          cases b with
          | nil => exact h.2 List.nil_suffix
          | cons n q => exact absurd hs.length_le (Nat.not_succ_le_self _)
        rw [List.nil_append, relocate_else hb' (fun hs => h.1 (hs.trans (List.tail_suffix b)))]
        exact hb
      | cons n r =>
        show (relocate b a (r ++ b)).bind _ = _
        rw [relocate_under]
        exact hdir
    · by_cases hb : b <:+ q
      · obtain ⟨r, rfl⟩ := hb
        rw [relocate_gone h] at hp
        cases hp
      · rw [relocate_else ha hb] at hp
        cases hp
        rw [relocate_else (fun hs => hb (hs.trans (List.tail_suffix q)))
          (fun hs => ha (hs.trans (List.tail_suffix q)))]
        exact hdir

theorem node_move {a b : Path} (h : Apart a b) (hb : t.node b.tail = some .dir) (p : Path) :
    (t.move a b h hb).node p = (relocate b a p).bind t.node := lookup_relocated h p t.entries

/-- What keeps `rename` from putting something of kind `k` at `b`. -/
def occupied (t : Tree) (k : Kind) (b : Path) : Option Errno :=
  match k, t.node b with
  | _,       none           => none
  | .dir,    some .dir      => if t.children b = [] then none else some (.other "Directory not empty".toList)
  | .dir,    some (.file _) => some .notdir
  | .file _, some .dir      => some (.other "Is a directory".toList)
  | .file _, some (.file _) => none

def rename (t : Tree) (a b : Path) : Except Errno Unit × Tree :=
  match t.node a with
  | none   => (.error (t.missing a), t)
  | some k =>
    if a = b then (.ok (), t)
    else if h : Apart a b then
      if hb : t.node b.tail = some .dir then
        match t.occupied k b with
        | some e => (.error e, t)
        | none   => (.ok (), t.move a b h hb)
      else (.error (t.missing b), t)
    else if a <:+ b then (.error (.other "Invalid argument".toList), t)
    else (.error (.other "Directory not empty".toList), t)

theorem children_eq_nil {q : Path} : t.children q = [] ↔ ∀ n, t.node (n :: q) = none := by
  rw [List.eq_nil_iff_forall_not_mem]
  simp [mem_children]

theorem rename_dir {a b : Path} (h : Apart a b) (ha : t.node a = some .dir) (hb : t.node b.tail = some .dir)
    (hfree : t.node b = none ∨ t.node b = some .dir ∧ t.children b = []) :
    t.rename a b = (.ok (), t.move a b h hb) := by
  have hne : a ≠ b := fun he => h.1 (he ▸ List.suffix_refl _)
  have hfree' : t.occupied .dir b = none := by
    unfold occupied
    rcases hfree with hnone | ⟨hdir, hempty⟩
    · simp [hnone]
    · simp [hdir, hempty]
  simp only [rename, ha, if_neg hne, dif_pos h, dif_pos hb, hfree']

theorem rename_full {a b : Path} (h : Apart a b) (ha : t.node a = some .dir) {n : Filename}
    (hb : t.node b = some .dir) (hn : t.node (n :: b) ≠ none) :
    t.rename a b = (.error (.other "Directory not empty".toList), t) := by
  have hne : a ≠ b := fun he => h.1 (he ▸ List.suffix_refl _)
  have hfull : t.children b ≠ [] := fun hnil => hn (children_eq_nil.1 hnil n)
  have hocc : t.occupied .dir b = some (.other "Directory not empty".toList) := by simp [occupied, hb, hfull]
  simp only [rename, ha, if_neg hne, dif_pos h, dif_pos (t.node_tail hb), hocc]

end Tree
end Posix
