import FrbL1.AcqPlaces
/-!
# AcqDirs — acquisitions started at the same time

Every function of `file_utils.cpp` ends, with the other servers' calls interfering, as it would alone
(`AsAlone`): the base directories look the same; the acquisition's directory may have been made by someone else, which
`makedir` does not mind; and the beam directories are its own.
-/
namespace FrbL1
namespace FileUtils

open Trans
open Conc Conc.Prog
open Posix (Filename Path Kind Errno Tree Call perform strerror)
open Posix.Tree

section
variable (t₀ : Tree) (acqdir : Filename) (bases : Path → Prop) (mine : Int → Prop)

/-- What one call adds to the tree, and what the others may add meanwhile. -/
abbrev Guarantee : Tree → Tree → Prop := Grows (Places t₀ acqdir bases mine)
abbrev Rely : Tree → Tree → Prop := Grows (Places t₀ acqdir bases (fun b => ¬ mine b))

abbrev AsAlone {α : Type} (I : Tree → Prop) (J : Except (List Char) α → Tree → Prop) (p : Sys α) : Prop :=
  Follows perform (Guarantee t₀ acqdir bases mine) (Rely t₀ acqdir bases mine) I J p

def Solo (u : Tree) : Prop := Guarantee t₀ acqdir bases mine t₀ u

variable {t₀ acqdir bases mine} {I I' : Tree → Prop} {α β : Type} {J J' : Except (List Char) α → Tree → Prop}

theorem rely_trans (t₁ t₂ t₃ : Tree) (h : Rely t₀ acqdir bases mine t₁ t₂) (h' : Rely t₀ acqdir bases mine t₂ t₃) :
    Rely t₀ acqdir bases mine t₁ t₃ := h.trans h'

theorem grows_all {u t : Tree} (hu : Solo t₀ acqdir bases mine u) (ht : Rely t₀ acqdir bases mine u t) :
    Grows (Places t₀ acqdir bases (fun _ => True)) t₀ t :=
  (hu.mono (places_mono (fun _ _ => trivial))).trans (ht.mono (places_mono (fun _ _ => trivial)))

theorem asAlone_ret (a : α) (h : ∀ u, I u → J (.ok a) u) : AsAlone t₀ acqdir bases mine I J (ret a) :=
  follows_ret rely_trans a h

theorem asAlone_throw (e : List Char) (h : ∀ u, I u → J (.error e) u) :
    AsAlone t₀ acqdir bases mine I J (throw e : Sys α) :=
  follows_throw rely_trans e h

theorem asAlone_bind {K : Except (List Char) β → Tree → Prop} {p : Sys α} {f : α → Sys β}
    (hp : AsAlone t₀ acqdir bases mine I J p) (hf : ∀ a, AsAlone t₀ acqdir bases mine (J (.ok a)) K (f a))
    (he : ∀ e u, J (.error e) u → K (.error e) u) : AsAlone t₀ acqdir bases mine I K (p >>= f) :=
  follows_bind (fun t => Grows.refl _ t) hp hf he

/-! ## Single calls -/

theorem perform_stat (t : Tree) {f : Filename} {r : Except Errno Kind} (h : t.stat f = r) :
    perform (Call.stat f) t = (r, t) := by rw [← h]; rfl

theorem perform_mkdir (t : Tree) {f : Filename} {r : Except Errno Unit × Tree} (h : t.mkdir f = r) :
    perform (Call.mkdir f) t = r := h

theorem perform_list (t : Tree) {f : Filename} {r : Except Errno (List Filename)} (h : t.list f = r) :
    perform (Call.list f) t = (r, t) := by rw [← h]; rfl

/-! ## Looking -/

theorem asAlone_stat {f : Filename} {k : Except Errno Kind → Sys α}
    (hsame : ∀ u t, I u → Rely t₀ acqdir bases mine u t → t.stat f = u.stat f)
    (hk : ∀ r, AsAlone t₀ acqdir bases mine (fun u => I u ∧ u.stat f = r) J (k r)) :
    AsAlone t₀ acqdir bases mine I J (stat f >>= k) := by
  show Follows perform _ _ I J (op (Call.stat f) k)
  refine follows_op rely_trans _ _ (fun (r : Except Errno Kind) u => I u ∧ u.stat f = r) (fun u t hu ht => ?_) hk
  exact ⟨Grows.refl _ t, hsame u t hu ht, ht, hu, rfl⟩

theorem asAlone_fileExists {f : Filename}
    (hsame : ∀ u t, I u → Rely t₀ acqdir bases mine u t → t.stat f = u.stat f) :
    AsAlone t₀ acqdir bases mine I (fun r u => I u ∧ (r = .ok true → ∃ k, u.stat f = .ok k) ∧
      (r = .ok false → u.stat f = .error .noent)) (fileExists f) := by
  refine asAlone_stat hsame (fun r => ?_)
  cases r with
  | ok k => exact asAlone_ret _ (fun u hu => ⟨hu.1, fun _ => ⟨k, hu.2⟩, fun h => nomatch h⟩)
  | error e =>
    cases e with
    | noent => exact asAlone_ret _ (fun u hu => ⟨hu.1, fun h => (nomatch h), fun _ => hu.2⟩)
    | notdir => exact asAlone_throw _ (fun u hu => ⟨hu.1, fun h => (nomatch h), fun h => nomatch h⟩)
    | exist => exact asAlone_throw _ (fun u hu => ⟨hu.1, fun h => (nomatch h), fun h => nomatch h⟩)
    | other e => exact asAlone_throw _ (fun u hu => ⟨hu.1, fun h => (nomatch h), fun h => nomatch h⟩)

theorem asAlone_isDirectory {f : Filename}
    (hsame : ∀ u t, I u → Rely t₀ acqdir bases mine u t → t.stat f = u.stat f) :
    AsAlone t₀ acqdir bases mine I (fun r u => I u ∧ (r = .ok true → u.stat f = .ok .dir)) (isDirectory f) := by
  refine asAlone_stat hsame (fun r => ?_)
  cases r with
  | ok k =>
    refine asAlone_ret _ (fun u hu => ⟨hu.1, fun h => ?_⟩)
    have hk : k = .dir := by simpa using Except.ok.inj h
    rw [hu.2, hk]
  | error e => exact asAlone_throw _ (fun u hu => ⟨hu.1, fun h => nomatch h⟩)

theorem asAlone_checkAcqdirBase {base : Filename}
    (hsame : ∀ u t, I u → Rely t₀ acqdir bases mine u t → t.stat base = u.stat base) :
    AsAlone t₀ acqdir bases mine I (fun r u => I u ∧ (r = .ok () → u.stat base = .ok .dir)) (checkAcqdirBase base) := by
  refine asAlone_bind (asAlone_fileExists hsame) (fun x => ?_) (fun e u hu => ⟨hu.1, fun h => nomatch h⟩)
  cases x with
  | false => exact asAlone_throw _ (fun u hu => ⟨hu.1, fun h => nomatch h⟩)
  | true =>
    refine asAlone_bind (J := fun r u => I u ∧ (r = .ok true → u.stat base = .ok .dir)) ?_ (fun y => ?_)
      (fun e u hu => ⟨hu.1, fun h => nomatch h⟩)
    · exact follows_mono (fun u hu => hu.1) (fun _ _ h => h) (asAlone_isDirectory hsame)
    · cases y with
      | false => exact asAlone_throw _ (fun u hu => ⟨hu.1, fun h => nomatch h⟩)
      | true => exact asAlone_ret _ (fun u hu => ⟨hu.1, fun _ => hu.2 rfl⟩)

/-! ## Making directories -/

theorem asAlone_makedir_fails {f : Filename} {e : Errno} (he : e ≠ .exist)
    (hfail : ∀ u t, I u → Rely t₀ acqdir bases mine u t → u.mkdir f = (.error e, u) ∧ t.mkdir f = (.error e, t)) :
    AsAlone t₀ acqdir bases mine I (fun r u => I u ∧ r ≠ .ok ()) (makedir f false) := by
  show Follows perform _ _ I _ (op (Call.mkdir f) _)
  refine follows_op rely_trans _ _ (fun (r : Except Errno Unit) u => I u ∧ r = .error e) (fun u t hu ht => ?_)
    (fun (r : Except Errno Unit) => ?_)
  · obtain ⟨hu', ht'⟩ := hfail u t hu ht
    show Guarantee t₀ acqdir bases mine t (t.mkdir f).2 ∧ (t.mkdir f).1 = (u.mkdir f).1 ∧
      Rely t₀ acqdir bases mine (u.mkdir f).2 (t.mkdir f).2 ∧ I (u.mkdir f).2 ∧ (u.mkdir f).1 = .error e
    rw [hu', ht']
    exact ⟨Grows.refl _ t, rfl, ht, hu, rfl⟩
  · cases r with
    | ok x => exact asAlone_ret _ (fun u hu => nomatch hu.2)
    | error e' =>
      by_cases hee : e' = e
      · subst hee
        show AsAlone t₀ acqdir bases mine _ _ (if false = true ∨ e' ≠ .exist then _ else _)
        rw [if_pos (.inr he)]
        exact asAlone_throw _ (fun u hu => ⟨hu.1, fun h => nomatch h⟩)
      · exact fun u t hu => absurd (Except.error.inj hu.2) hee

theorem asAlone_makedir_exists {f : Filename}
    (hexist : ∀ u t, I u → Rely t₀ acqdir bases mine u t →
      u.mkdir f = (.error .exist, u) ∧ t.mkdir f = (.error .exist, t) ∧ t.stat f = u.stat f) :
    AsAlone t₀ acqdir bases mine I (fun r u => I u ∧ (r = .ok () → u.stat f = .ok .dir)) (makedir f false) := by
  show Follows perform _ _ I _ (op (Call.mkdir f) _)
  refine follows_op rely_trans _ _ (fun (r : Except Errno Unit) u => I u ∧ r = .error .exist) (fun u t hu ht => ?_)
    (fun (r : Except Errno Unit) => ?_)
  · obtain ⟨hu', ht', -⟩ := hexist u t hu ht
    show Guarantee t₀ acqdir bases mine t (t.mkdir f).2 ∧ (t.mkdir f).1 = (u.mkdir f).1 ∧
      Rely t₀ acqdir bases mine (u.mkdir f).2 (t.mkdir f).2 ∧ I (u.mkdir f).2 ∧ (u.mkdir f).1 = .error .exist
    rw [hu', ht']
    exact ⟨Grows.refl _ t, rfl, ht, hu, rfl⟩
  · cases r with
    | ok x => exact fun u t hu => nomatch hu.2
    | error e =>
      by_cases he : e = .exist
      · subst he
        refine asAlone_stat (fun u t hu ht => (hexist u t hu.1 ht).2.2) (fun r => ?_)
        cases r with
        | error e => exact asAlone_throw _ (fun u hu => ⟨hu.1.1, fun h => nomatch h⟩)
        | ok k =>
          cases k with
          | dir => exact asAlone_ret _ (fun u hu => ⟨hu.1.1, fun _ => hu.2⟩)
          | file data => exact asAlone_throw _ (fun u hu => ⟨hu.1.1, fun h => nomatch h⟩)
      · exact fun u t hu => absurd (Except.error.inj hu.2) he

theorem stat_acqdir {t : Tree} {Q : Path} {k : Kind} (ht : Rely t₀ acqdir bases mine t₀ t) (hQ : Home t₀ acqdir Q)
    (hk : t₀.node Q = some k) : t.stat acqdir = t₀.stat acqdir := by
  obtain ⟨m, hm⟩ := stripSlashes_append (components acqdir)
  have hwalk : ∀ u : Tree, Grows (Places t₀ acqdir bases (fun b => ¬ mine b)) t₀ u →
      u.walk [] (components acqdir) = u.walk Q (List.replicate m []) := by
    intro u hu
    rw [hm, walk_append, hu.walk _ _ _ hQ]
  have hempty : t.walk Q (List.replicate m []) = t₀.walk Q (List.replicate m []) := by
    rw [walk_empties_eq (ht.keeps Q _ hk), walk_empties_eq hk]
  unfold Tree.stat
  rw [ht.fault, hwalk t ht, hwalk t₀ (Grows.refl _ t₀), hempty]
  split
  · rfl
  · split
    · rfl
    · split
      · rfl
      · rename_i q hq
        have hqQ : q = Q := by
          rw [walk_empties_eq hk] at hq
          split at hq
          · exact (Except.ok.inj hq).symm
          · cases hq
        rw [hqQ, ht.keeps Q _ hk, hk]

theorem asAlone_makedir_creates {Q : Path} (hne : acqdir ≠ []) (hfault : t₀.fault acqdir = none)
    (hcreate : t₀.noCreate acqdir = none) (hQ : Home t₀ acqdir Q) (hnone : t₀.node Q = none) (hbase : ¬ bases Q) :
    AsAlone t₀ acqdir bases mine (fun u => u = t₀) (fun r u => Solo t₀ acqdir bases mine u ∧
      (r = .ok () → u.node Q = some .dir)) (makedir acqdir false) := by
  rintro u t rfl ht
  cases Q with
  | nil => rw [u.node_root] at hnone; cases hnone
  | cons n q =>
    have hq : u.node q = some .dir := node_tail_of_walk u _ [] (n :: q) u.node_root hQ
    have hmk : u.mkdir acqdir = (.ok (), u.addDir n q hq) := mkdir_creates hfault hne hQ hnone hcreate hq
    have hplace : Places u acqdir bases mine (n :: q) := ⟨n :: q, hQ, .inl ⟨rfl, hfault, hcreate, hbase⟩⟩
    have hsolo : solo perform (makedir acqdir false) u = (.ok (), u.addDir n q hq) := by
      show solo perform (Prog.bind (ret (perform (Call.mkdir acqdir) u).1) _) (perform (Call.mkdir acqdir) u).2 = _
      rw [perform_mkdir u hmk]
      rfl
    have hpost : Solo u acqdir bases mine (u.addDir n q hq) ∧ (u.addDir n q hq).node (n :: q) = some .dir :=
      ⟨Grows.addDir u n q hq hnone hplace, by rw [node_addDir, if_pos rfl]⟩
    rw [hsolo]
    intro s hs
    have hR : Rely u acqdir bases mine u s := ht.trans hs
    have hqs : s.node q = some .dir := hR.keeps q _ hq
    have hws := hR.walk _ _ _ hQ
    cases hk : s.node (n :: q) with
    | none =>
      have hmk' := mkdir_creates (by rw [hR.fault]; exact hfault) hne hws hk (by rw [hR.noCreate]; exact hcreate) hqs
      rw [perform_mkdir s hmk']
      refine ⟨Grows.addDir s n q hqs hk hplace, fun s' hs' => ⟨rfl, ?_, hpost.1, fun _ => hpost.2⟩⟩
      exact (Grows.addDir_both hR hq hqs).trans hs'
    | some k =>
      have hdir : k = .dir := by
        have h := (hR.adds (n :: q) (by rw [hk, hnone]; exact fun he => nomatch he)).2
        rw [hk] at h
        exact Option.some.inj h
      subst hdir
      rw [perform_mkdir s (mkdir_exists (by rw [hR.fault]; exact hfault) hne hws hk)]
      refine ⟨Grows.refl _ s, fun s' hs' => ?_⟩
      have hR' : Rely u acqdir bases mine u s' := hR.trans hs'
      have hk' : s'.node (n :: q) = some .dir := hs'.keeps _ _ hk
      have hws' : s'.walk [] (components acqdir) = .ok (n :: q) := walk_acqdir hR' hQ hk'
      have hstat : s'.stat acqdir = .ok .dir := by
        rw [stat_of_walk hne hws', hR'.fault, hfault, hk']
      rw [perform_stat s' hstat]
      refine ⟨Grows.refl _ s', fun s'' hs'' => ⟨rfl, ?_, hpost.1, fun _ => hpost.2⟩⟩
      exact Grows.addDir_left (hR'.trans hs'') hq (hs''.keeps _ _ hk')

theorem node_of_stat_acqdir {Q : Path} {k : Kind} (hQ : Home t₀ acqdir Q) (hk : t₀.node Q = some k)
    (hstat : t₀.stat acqdir = .ok .dir) : k = .dir := by
  cases k with
  | dir => rfl
  | file data =>
    obtain ⟨m, hm⟩ := stripSlashes_append (components acqdir)
    have hwalk : t₀.walk [] (components acqdir) = t₀.walk Q (List.replicate m []) := by
      rw [hm, walk_append, hQ]
    unfold Tree.stat at hstat
    rw [hwalk] at hstat
    split at hstat
    · cases hstat
    · split at hstat
      · cases hstat
      · cases m with
        | zero =>
          rw [List.replicate_zero, walk] at hstat
          simp only [hk] at hstat
          cases hstat
        | succ m =>
          rw [List.replicate_succ, walk, hk] at hstat
          cases hstat

/-- **The acquisition's directory**, whoever makes it. -/
theorem asAlone_makedir_acqdir (hne : acqdir ≠ [])
    (hbase : ∀ Q, Home t₀ acqdir Q → t₀.node Q = none → ¬ bases Q) :
    AsAlone t₀ acqdir bases mine (fun u => u = t₀) (fun r u => Solo t₀ acqdir bases mine u ∧
      (r = .ok () → ∃ Q, Home t₀ acqdir Q ∧ u.node Q = some .dir)) (makedir acqdir false) := by
  have hsolo : ∀ u, u = t₀ → Solo t₀ acqdir bases mine u := fun u hu => hu ▸ Grows.refl _ t₀
  have hfails : ∀ (e : Errno), e ≠ .exist →
      (∀ t, Rely t₀ acqdir bases mine t₀ t → t.mkdir acqdir = (.error e, t)) →
      AsAlone t₀ acqdir bases mine (fun u => u = t₀) (fun r u => Solo t₀ acqdir bases mine u ∧
        (r = .ok () → ∃ Q, Home t₀ acqdir Q ∧ u.node Q = some .dir)) (makedir acqdir false) := by
    intro e he hmk
    refine follows_mono (fun u hu => hu) (fun r u h => ⟨hsolo u h.1, fun hr => absurd hr h.2⟩)
      (asAlone_makedir_fails he (fun u t hu ht => ?_))
    subst hu
    exact ⟨hmk u (Grows.refl _ u), hmk t ht⟩
  cases hfault : t₀.fault acqdir with
  | some e => exact hfails (.other e) (fun h => nomatch h) (fun t ht => mkdir_fault (by rw [ht.fault]; exact hfault))
  | none =>
    have hfault' : ∀ t, Rely t₀ acqdir bases mine t₀ t → t.fault acqdir = none :=
      fun t ht => by rw [ht.fault]; exact hfault
    cases hw : t₀.walk [] (stripSlashes (components acqdir)) with
    | error e =>
      refine hfails e (walk_errno t₀ _ _ e hw) (fun t ht => mkdir_unresolved (hfault' t ht) hne ?_)
      have hno : ∀ Q, ¬ Home t₀ acqdir Q := fun Q hQ => by
        unfold Home at hQ
        rw [hw] at hQ
        cases hQ
      rw [walk_congr (node_eq_of_no_home hno ht), hw]
    | ok Q =>
      cases hk : t₀.node Q with
      | some k =>
        refine follows_mono (fun u hu => hu) ?_ (asAlone_makedir_exists (fun u t hu ht => ?_))
        · rintro r u ⟨rfl, hdir⟩
          exact ⟨hsolo u rfl, fun hr => ⟨Q, hw, by rw [hk, node_of_stat_acqdir hw hk (hdir hr)]⟩⟩
        · subst hu
          exact ⟨mkdir_exists hfault hne hw hk,
            mkdir_exists (hfault' t ht) hne (ht.walk _ _ _ hw) (ht.keeps Q k hk), stat_acqdir ht hw hk⟩
      | none =>
        cases hc : t₀.noCreate acqdir with
        | some e =>
          refine hfails (.other e) (fun h => nomatch h) (fun t ht => ?_)
          have hplace : ¬ Places t₀ acqdir bases (fun b => ¬ mine b) Q := by
            rintro ⟨Q', hQ', ⟨-, -, hc', -⟩ | ⟨b, -, he⟩⟩
            · rw [hc] at hc'; cases hc'
            · obtain rfl := home_unique hw hQ'
              exact absurd (congrArg List.length he) (by simp only [List.length_cons]; omega)
          exact mkdir_denied (hfault' t ht) hne (ht.walk _ _ _ hw) (by rw [ht.node_eq hplace]; exact hk)
            (by rw [ht.noCreate]; exact hc)
        | none =>
          exact follows_mono (fun u hu => hu) (fun r u h => ⟨h.1, fun hr => ⟨Q, hw, h.2 hr⟩⟩)
            (asAlone_makedir_creates hne hfault hc hw hk (hbase Q hw hk))

/-! ## The beams -/

/-- An empty directory for a beam. -/
def Clean (u : Tree) (Q : Path) (b : Int) : Prop :=
  u.node (beamName b :: Q) = some .dir ∧ ∀ n, u.node (n :: beamName b :: Q) = none

/-- The acquisition's directory is there, and those of some of this call's beams are, and are empty. -/
structure Ready (t₀ : Tree) (acqdir : Filename) (bases : Path → Prop) (mine : Int → Prop) (Q : Path)
    (done : Int → Prop) (u : Tree) : Prop where
  solo  : Solo t₀ acqdir bases mine u
  home  : Home t₀ acqdir Q
  dir   : u.node Q = some .dir
  clean : ∀ b, done b → Clean u Q b

/-- An empty beam directory stays empty while directories come into being at the acquisition's places. -/
theorem clean_grows {beams : Int → Prop} {u t : Tree} {Q : Path} {b : Int} (hQ : Home t₀ acqdir Q)
    (h : Grows (Places t₀ acqdir bases beams) u t) (hb : Clean u Q b) : Clean t Q b :=
  ⟨h.keeps _ _ hb.1, fun n => by rw [h.node_eq (not_places_in_beam n b hQ)]; exact hb.2 n⟩

section
variable {Q : Path} {done : Int → Prop} {b : Int}

theorem beamdir_ne_nil (acqdir : Filename) (b : Int) : acqdir ++ '/' :: beamName b ≠ [] := by simp

theorem stat_beamdir_eq {u t : Tree} (hb : mine b) (hu : Ready t₀ acqdir bases mine Q done u)
    (ht : Rely t₀ acqdir bases mine u t) :
    t.stat (acqdir ++ '/' :: beamName b) = u.stat (acqdir ++ '/' :: beamName b) := by
  have hall := grows_all hu.solo ht
  rw [stat_of_walk (beamdir_ne_nil acqdir b) (walk_beamdir hall hu.home (ht.keeps Q _ hu.dir) b),
    stat_of_walk (beamdir_ne_nil acqdir b) (walk_beamdir hu.solo hu.home hu.dir b), ht.fault,
    ht.node_eq (not_places_beam hu.home (fun h => h hb))]

theorem absent_of_stat_beamdir {u : Tree} (hu : Ready t₀ acqdir bases mine Q done u)
    (hstat : u.stat (acqdir ++ '/' :: beamName b) = .error .noent) :
    u.fault (acqdir ++ '/' :: beamName b) = none ∧ u.node (beamName b :: Q) = none := by
  rw [stat_of_walk (beamdir_ne_nil acqdir b) (walk_beamdir hu.solo hu.home hu.dir b)] at hstat
  split at hstat
  · cases hstat
  · rename_i hf
    split at hstat
    · rename_i hn
      exact ⟨hf, hn⟩
    · cases hstat

theorem walk_stripped_beamdir (b : Int) {u t : Tree} (hu : Ready t₀ acqdir bases mine Q done u)
    (ht : Rely t₀ acqdir bases mine u t) :
    t.walk [] (stripSlashes (components (acqdir ++ '/' :: beamName b))) = .ok (beamName b :: Q) := by
  have hstrip : stripSlashes (components (acqdir ++ '/' :: beamName b)) =
      components (acqdir ++ '/' :: beamName b) := by
    rw [components_beamdir]
    exact stripSlashes_append_ne _ (by simp [beamName])
  rw [hstrip]
  exact walk_beamdir (grows_all hu.solo ht) hu.home (ht.keeps Q _ hu.dir) b

theorem Ready.addDir (hb : mine b) {u : Tree} (hu : Ready t₀ acqdir bases mine Q done u)
    (hn : u.node (beamName b :: Q) = none) :
    Ready t₀ acqdir bases mine Q (fun b' => b' = b ∨ done b') (u.addDir (beamName b) Q hu.dir) := by
  have hgrow : Guarantee t₀ acqdir bases mine u (u.addDir (beamName b) Q hu.dir) :=
    Grows.addDir u (beamName b) Q hu.dir hn ⟨Q, hu.home, .inr ⟨b, hb, rfl⟩⟩
  refine ⟨hu.solo.trans hgrow, hu.home, hgrow.keeps Q _ hu.dir, fun b' hb' => ?_⟩
  rcases hb' with rfl | hb'
  · refine ⟨by rw [node_addDir, if_pos rfl], fun n => ?_⟩
    rw [hgrow.node_eq (not_places_in_beam n b' hu.home)]
    cases hk : u.node (n :: beamName b' :: Q) with
    | none => rfl
    | some k =>
      have hpar := u.node_tail hk
      rw [List.tail_cons, hn] at hpar
      cases hpar
  · exact clean_grows hu.home hgrow (hu.clean b' hb')

theorem asAlone_makedir_beamdir (hb : mine b) :
    AsAlone t₀ acqdir bases mine
      (fun u => Ready t₀ acqdir bases mine Q done u ∧ u.stat (acqdir ++ '/' :: beamName b) = .error .noent)
      (fun r u => Solo t₀ acqdir bases mine u ∧
        (r = .ok () → Ready t₀ acqdir bases mine Q (fun b' => b' = b ∨ done b') u))
      (makedir (acqdir ++ '/' :: beamName b) false) := by
  have hne := beamdir_ne_nil acqdir b
  have habsent : ∀ u t, Ready t₀ acqdir bases mine Q done u → u.node (beamName b :: Q) = none →
      Rely t₀ acqdir bases mine u t → t.node (beamName b :: Q) = none := by
    intro u t hu hn ht
    rw [ht.node_eq (not_places_beam hu.home (fun h => h hb))]
    exact hn
  cases hc : t₀.noCreate (acqdir ++ '/' :: beamName b) with
  | some e =>
    refine follows_mono (fun u hu => hu) (fun r u h => ⟨h.1.1.solo, fun hr => absurd hr h.2⟩)
      (asAlone_makedir_fails (e := .other e) (fun h => nomatch h) (fun u t ⟨hu, hstat⟩ ht => ?_))
    obtain ⟨hf, hn⟩ := absent_of_stat_beamdir hu hstat
    have hcu : u.noCreate (acqdir ++ '/' :: beamName b) = some e := by rw [hu.solo.noCreate]; exact hc
    exact ⟨mkdir_denied hf hne (walk_stripped_beamdir b hu (Grows.refl _ u)) hn hcu,
      mkdir_denied (by rw [ht.fault]; exact hf) hne (walk_stripped_beamdir b hu ht) (habsent u t hu hn ht)
        (by rw [ht.noCreate]; exact hcu)⟩
  | none =>
    show Follows perform _ _ _ _ (op (Call.mkdir _) _)
    refine follows_op rely_trans _ _ (fun (r : Except Errno Unit) u =>
      r = .ok () ∧ Ready t₀ acqdir bases mine Q (fun b' => b' = b ∨ done b') u) (fun u t ⟨hu, hstat⟩ ht => ?_)
      (fun (r : Except Errno Unit) => ?_)
    · obtain ⟨hf, hn⟩ := absent_of_stat_beamdir hu hstat
      have hcu : u.noCreate (acqdir ++ '/' :: beamName b) = none := by rw [hu.solo.noCreate]; exact hc
      have hdt := ht.keeps Q _ hu.dir
      have hnt := habsent u t hu hn ht
      show Guarantee t₀ acqdir bases mine t (t.mkdir _).2 ∧ (t.mkdir _).1 = (u.mkdir _).1 ∧
        Rely t₀ acqdir bases mine (u.mkdir _).2 (t.mkdir _).2 ∧ (u.mkdir _).1 = .ok () ∧
        Ready t₀ acqdir bases mine Q _ (u.mkdir _).2
      rw [mkdir_creates hf hne (walk_stripped_beamdir b hu (Grows.refl _ u)) hn hcu hu.dir,
        mkdir_creates (by rw [ht.fault]; exact hf) hne (walk_stripped_beamdir b hu ht) hnt
          (by rw [ht.noCreate]; exact hcu) hdt]
      exact ⟨Grows.addDir t (beamName b) Q hdt hnt ⟨Q, hu.home, .inr ⟨b, hb, rfl⟩⟩, rfl,
        Grows.addDir_both ht hu.dir hdt, rfl, hu.addDir hb hn⟩
    · cases r with
      | ok x => exact asAlone_ret _ (fun u hu => ⟨hu.2.solo, fun _ => hu.2⟩)
      | error e => exact fun u t hu => nomatch hu.1

theorem isEmptyDirectory_eq (u : Tree) {f : Filename} {r : Except Errno (List Filename)} (h : u.list f = r) :
    solo perform (isEmptyDirectory f) u = match r with
      | .ok names => (.ok names.isEmpty, u)
      | .error e  => (.error (f ++ ": opendir() failed: ".toList ++ strerror e), u) := by
  show solo perform (Prog.bind (ret (perform (Call.list _) u).1) _) (perform (Call.list _) u).2 = _
  rw [perform_list u h]
  cases r with
  | ok names => rfl
  | error e => rfl

theorem asAlone_isEmptyDirectory :
    AsAlone t₀ acqdir bases mine
      (fun u => Ready t₀ acqdir bases mine Q done u ∧ u.stat (acqdir ++ '/' :: beamName b) = .ok .dir)
      (fun r u => Ready t₀ acqdir bases mine Q done u ∧
        (r = .ok true → Clean u Q b)) (isEmptyDirectory (acqdir ++ '/' :: beamName b)) := by
  rintro u t ⟨hu, hstat⟩ ht s hs
  have hR : Rely t₀ acqdir bases mine u s := ht.trans hs
  have hne := beamdir_ne_nil acqdir b
  have hwu := walk_beamdir hu.solo hu.home hu.dir b
  have hws := walk_beamdir (grows_all hu.solo hR) hu.home (hR.keeps Q _ hu.dir) b
  rw [stat_of_walk hne hwu] at hstat
  split at hstat
  · cases hstat
  rename_i hf
  split at hstat
  · cases hstat
  rename_i k hk
  cases hstat
  have hchildren : (s.children (beamName b :: Q)).isEmpty = (u.children (beamName b :: Q)).isEmpty := by
    rw [Bool.eq_iff_iff, List.isEmpty_iff, List.isEmpty_iff, List.eq_nil_iff_forall_not_mem,
      List.eq_nil_iff_forall_not_mem]
    refine forall_congr' (fun n => not_congr ?_)
    rw [mem_children, mem_children, hR.node_eq (not_places_in_beam n b hu.home)]
  have hlu := list_of_walk hne hwu hk
  have hls := list_of_walk hne hws (hR.keeps _ _ hk)
  rw [hf] at hlu
  rw [hR.fault, hf, hR.noList] at hls
  cases hl : u.noList (acqdir ++ '/' :: beamName b) with
  | some e =>
    rw [hl] at hlu hls
    rw [isEmptyDirectory_eq u hlu, perform_list s hls]
    exact ⟨Grows.refl _ s, fun s' hs' => ⟨rfl, hR.trans hs', hu, fun h => nomatch h⟩⟩
  | none =>
    rw [hl] at hlu hls
    rw [isEmptyDirectory_eq u hlu, perform_list s hls]
    refine ⟨Grows.refl _ s, fun s' hs' => ⟨congrArg Except.ok hchildren, hR.trans hs', hu, fun h => ⟨hk, fun n => ?_⟩⟩⟩
    have hnil : u.children (beamName b :: Q) = [] := List.isEmpty_iff.1 (Except.ok.inj h)
    by_contra hne
    have hmem := (mem_children u (beamName b :: Q) n).2 hne
    rw [hnil] at hmem
    cases hmem

theorem asAlone_checkBeamdir (hb : mine b) :
    AsAlone t₀ acqdir bases mine (Ready t₀ acqdir bases mine Q done) (fun r u => Solo t₀ acqdir bases mine u ∧
      (r = .ok () → Ready t₀ acqdir bases mine Q (fun b' => b' = b ∨ done b') u)) (checkBeamdir acqdir true b) := by
  have hsame : ∀ u t, Ready t₀ acqdir bases mine Q done u → Rely t₀ acqdir bases mine u t →
      t.stat (acqdir ++ '/' :: beamName b) = u.stat (acqdir ++ '/' :: beamName b) :=
    fun u t hu ht => stat_beamdir_eq hb hu ht
  refine asAlone_bind (asAlone_fileExists hsame) (fun found => ?_) (fun e u hu => ⟨hu.1.solo, fun h => nomatch h⟩)
  cases found with
  | false => exact follows_mono (fun u hu => ⟨hu.1, hu.2.2 rfl⟩) (fun _ _ h => h) (asAlone_makedir_beamdir hb)
  | true =>
    refine asAlone_bind (follows_mono (fun u hu => hu.1) (fun _ _ h => h) (asAlone_isDirectory hsame))
      (fun isdir => ?_) (fun e u hu => ⟨hu.1.solo, fun h => nomatch h⟩)
    cases isdir with
    | false => exact asAlone_throw _ (fun u hu => ⟨hu.1.solo, fun h => nomatch h⟩)
    | true =>
      refine asAlone_bind (follows_mono (fun u hu => ⟨hu.1, hu.2 rfl⟩) (fun _ _ h => h) asAlone_isEmptyDirectory)
        (fun empty => ?_) (fun e u hu => ⟨hu.1.solo, fun h => nomatch h⟩)
      cases empty with
      | false => exact asAlone_throw _ (fun u hu => ⟨hu.1.solo, fun h => nomatch h⟩)
      | true =>
        refine asAlone_ret _ (fun u hu => ⟨hu.1.solo, fun _ => ⟨hu.1.solo, hu.1.home, hu.1.dir, fun b' hb' => ?_⟩⟩)
        rcases hb' with rfl | hb'
        · exact hu.2 rfl
        · exact hu.1.clean b' hb'

end

theorem asAlone_checkBeamdirs {Q : Path} : ∀ (bs : List Int) (done : Int → Prop), (∀ b ∈ bs, mine b) →
    AsAlone t₀ acqdir bases mine (Ready t₀ acqdir bases mine Q done) (fun r u => Solo t₀ acqdir bases mine u ∧
      (r = .ok () → Ready t₀ acqdir bases mine Q (fun b => b ∈ bs ∨ done b) u)) (checkBeamdirs acqdir true bs)
  | [], done, _ => by
    refine asAlone_ret _ (fun u hu => ⟨hu.solo, fun _ => ⟨hu.solo, hu.home, hu.dir, fun b hb => ?_⟩⟩)
    exact hu.clean b (hb.resolve_left List.not_mem_nil)
  | b :: bs, done, hbs => by
    refine asAlone_bind (asAlone_checkBeamdir (hbs b (.head _))) (fun _ => ?_) (fun e u hu => ⟨hu.1, fun h => nomatch h⟩)
    refine follows_mono (fun u hu => hu.2 rfl) (fun r u h => ⟨h.1, fun hr => ?_⟩)
      (asAlone_checkBeamdirs bs _ (fun b' hb' => hbs b' (List.mem_cons_of_mem b hb')))
    obtain ⟨hsolo, hhome, hdir, hclean⟩ := h.2 hr
    refine ⟨hsolo, hhome, hdir, fun b' hb' => hclean b' ?_⟩
    rcases hb' with hb' | hb'
    · rcases List.mem_cons.1 hb' with rfl | hb'
      · exact .inr (.inl rfl)
      · exact .inl hb'
    · exact .inr (.inr hb')

end

end FileUtils
end FrbL1
