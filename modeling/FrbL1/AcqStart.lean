import FrbL1.AcqDirs
/-!
# AcqStart — a new acquisition on all servers at once

Any number of calls of `acqname_to_filename_pattern` for one new acquisition, each for its own streams and beams, with
their system calls interleaved (`acquisitions_start_as_if_alone`): each ends as it would have ended alone, and nothing
that was there is touched.  One thing has to be excluded: an `acqname` that leads, by way of `..`, back to a base
directory that a call checks (`acquisition_makes_base`).
-/
namespace FrbL1
namespace FileUtils

open Trans
open Conc Conc.Prog
open Posix (Filename Path Kind Errno Tree Call perform strerror)
open Posix.Tree

structure Request where
  streamIds : List Int
  beamIds   : List Int

def start (devname acqname : Filename) (r : Request) : Sys Filename :=
  acqnameToFilenamePattern devname acqname r.streamIds r.beamIds true

/-! ## The base directories -/

def ssdPath : Path := ["acq_data".toList, "local".toList]

def archiver (streamId : Int) : Filename := "frb-archiver-".toList ++ toString streamId

def nfsPath (streamId : Int) : Path := ["acq_data".toList, archiver streamId]

theorem components_two (c₁ c₂ : Filename) (h₁ : '/' ∉ c₁) (h₂ : '/' ∉ c₂) :
    components ('/' :: c₁ ++ '/' :: c₂) = [[], c₁, c₂] := by
  have h := components_append ('/' :: c₁) c₂
  have h' := components_append [] c₁
  rw [List.nil_append] at h'
  rw [h, h']
  unfold components
  rw [List.splitOn_eq_singleton h₁, List.splitOn_eq_singleton h₂]
  rfl

theorem slash_not_mem_archiver (s : Int) : '/' ∉ archiver s := by
  have hs : '/' ∉ toString s := fun h => not_mem_setw rfl (by decide) 0 s (List.mem_append_right _ h)
  have hlit : '/' ∉ "frb-archiver-".toList := by decide
  unfold archiver
  rw [List.mem_append, not_or]
  exact ⟨hlit, hs⟩

theorem nfsBase_eq (s : Int) : nfsBase s = '/' :: archiver s ++ '/' :: "acq_data".toList := by
  have h₁ : "/frb-archiver-".toList = '/' :: "frb-archiver-".toList := by decide
  have h₂ : "/acq_data".toList = '/' :: "acq_data".toList := by decide
  unfold nfsBase archiver
  rw [h₁, h₂, List.cons_append]

theorem components_nfsBase (s : Int) : components (nfsBase s) = [[], archiver s, "acq_data".toList] := by
  have h := components_two (archiver s) "acq_data".toList (slash_not_mem_archiver s) (by decide)
  rw [nfsBase_eq, h]

theorem components_ssdBase : components ssdBase = [[], "local".toList, "acq_data".toList] := by
  have h := components_two "local".toList "acq_data".toList (by decide) (by decide)
  have heq : ssdBase = '/' :: "local".toList ++ '/' :: "acq_data".toList := by decide
  rw [heq, h]

theorem next_archiver (s : Int) : next [] (archiver s) = [archiver s] := by
  have hlit : "frb-archiver-".toList = 'f' :: "rb-archiver-".toList := by decide
  unfold next archiver
  rw [hlit, List.cons_append, if_neg (by simp), if_neg (by simp)]

theorem beamName_ne_acq_data (b : Int) : beamName b ≠ "acq_data".toList := by
  simp [beamName]

theorem foldl_next_of_walk (t : Tree) : ∀ (cs : List Filename) (q p : Path), t.walk q cs = .ok p → p = cs.foldl next q
  | [], q, p, h => by
    cases h; rfl
  | c :: cs, q, p, h => by
    rw [walk] at h
    split at h
    · cases h
    · cases h
    · exact foldl_next_of_walk t cs (next q c) p h

theorem exists_component : ∀ (l : List Char), (∃ c ∈ l, c ≠ '/') → ∃ c ∈ l.splitOn '/', c ≠ []
  | [], ⟨c, hc, _⟩ => nomatch hc
  | x :: l, ⟨c, hc, hne⟩ => by
    rw [List.splitOn_cons_eq_if_modifyHead]
    split
    · rename_i hx
      have hc' : c ∈ l := by
        rcases List.mem_cons.1 hc with rfl | hc
        · exact absurd (beq_iff_eq.1 hx) hne
        · exact hc
      obtain ⟨d, hd, hd'⟩ := exists_component l ⟨c, hc', hne⟩
      exact ⟨d, List.mem_cons_of_mem _ hd, hd'⟩
    · cases hs : l.splitOn '/' with
      | nil => exact absurd hs (List.splitOn_ne_nil '/' l)
      | cons d ds => exact ⟨x :: d, by simp, by simp⟩

theorem dropWhile_ne_nil {ys : List Filename} (h : ∃ c ∈ ys, c ≠ []) : ys.reverse.dropWhile (· = []) ≠ [] := by
  obtain ⟨c, hc, hne⟩ := h
  rw [Ne, List.dropWhile_eq_nil_iff]
  intro hall
  exact hne (by simpa using hall c (List.mem_reverse.2 hc))

theorem stripSlashes_append_of_exists (xs : List Filename) {ys : List Filename} (h : ∃ c ∈ ys, c ≠ []) :
    stripSlashes (xs ++ ys) = xs ++ stripSlashes ys := by
  have hdrop := dropWhile_ne_nil h
  unfold stripSlashes
  rw [List.reverse_append, List.dropWhile_append, if_neg (by simpa using hdrop), List.reverse_append,
    List.reverse_reverse]

/-! ## Where the acquisition's directory is -/

def acqdir (devname acqname : Filename) : Filename :=
  (if strcaseeq devname "ssd".toList then ssdBase else nfsBase 1) ++ '/' :: acqname

/-- On the NFS area, the directory that would be made is none of the base directories that are checked. -/
def Apart (t₀ : Tree) (acqname : Filename) (reqs : List Request) : Prop :=
  ∀ Q, Home t₀ (nfsBase 1 ++ '/' :: acqname) Q → t₀.node Q = none → ∀ r ∈ reqs, ∀ s ∈ r.streamIds, Q ≠ nfsPath s

theorem foldl_next_nfsBase (s : Int) : (components (nfsBase s)).foldl next [] = nfsPath s := by
  have hroot : next [] [] = [] := rfl
  have hlast : ∀ q, next q "acq_data".toList = "acq_data".toList :: q := fun q => by simp [next]
  rw [components_nfsBase, List.foldl_cons, List.foldl_cons, List.foldl_cons, List.foldl_nil, hroot, next_archiver, hlast,
    nfsPath]

theorem home_nfs {t : Tree} {acqname : Filename} {Q : Path} (hname : ∃ c ∈ acqname, c ≠ '/')
    (h : Home t (nfsBase 1 ++ '/' :: acqname) Q) :
    t.node (nfsPath 1) = some .dir ∧ Q = (stripSlashes (components acqname)).foldl next (nfsPath 1) := by
  have hcomp : ∃ c ∈ components acqname, c ≠ [] := exists_component acqname hname
  obtain ⟨c, cs, hcs⟩ := List.exists_cons_of_ne_nil (mt List.reverse_eq_nil_iff.1 (dropWhile_ne_nil hcomp))
  unfold Home at h
  rw [components_append, stripSlashes_append_of_exists (components (nfsBase 1)) hcomp, walk_append] at h
  split at h
  · rename_i q hq
    obtain rfl : q = nfsPath 1 := (foldl_next_of_walk t _ [] q hq).trans (foldl_next_nfsBase 1)
    refine ⟨?_, foldl_next_of_walk t _ _ Q h⟩
    unfold stripSlashes at h
    simp only [hcs, walk] at h
    split at h
    · cases h
    · cases h
    · assumption
  · cases h

theorem foldl_next_suffix : ∀ (cs : List Filename) (q : Path), "..".toList ∉ cs → q <:+ cs.foldl next q
  | [], q, _ => List.suffix_rfl
  | c :: cs, q, h => by
    have hc : q <:+ next q c := by
      unfold next
      split
      · exact List.suffix_rfl
      · rw [if_neg (fun he : c = "..".toList => h (he ▸ .head _))]
        exact List.suffix_cons c q
    exact hc.trans (foldl_next_suffix cs (next q c) (fun hm => h (List.mem_cons_of_mem c hm)))

/-- **An ordinary name is apart**: one without `..`, and not of slashes only. -/
theorem apart_of_plain (t₀ : Tree) {acqname : Filename} (reqs : List Request) (hname : ∃ c ∈ acqname, c ≠ '/')
    (hup : "..".toList ∉ components acqname) : Apart t₀ acqname reqs := by
  rintro Q hQ hnone r - s - rfl
  obtain ⟨hdir, hfold⟩ := home_nfs hname hQ
  have hsuffix : nfsPath 1 <:+ nfsPath s := by
    rw [hfold]
    refine foldl_next_suffix _ _ (fun h => hup ?_)
    obtain ⟨m, hm⟩ := stripSlashes_append (components acqname)
    rw [hm]
    exact List.mem_append_left _ h
  rw [← hsuffix.eq_of_length rfl, hdir] at hnone
  cases hnone

theorem node_of_stat {t : Tree} {f c₁ c₂ : Filename} (hc : components f = [[], c₁, c₂]) (h₁ : next [] c₁ = [c₁])
    (h₂ : next [c₁] c₂ = [c₂, c₁]) (h : t.stat f = .ok .dir) : t.node [c₂, c₁] = some .dir := by
  unfold Tree.stat at h
  split at h
  · cases h
  · split at h
    · cases h
    · split at h
      · cases h
      · rename_i q hq
        have hqp : q = [c₂, c₁] := by
          have h' := foldl_next_of_walk t _ [] q hq
          rw [h', hc, List.foldl_cons, List.foldl_cons, List.foldl_cons, List.foldl_nil,
            show next [] [] = [] from rfl, h₁, h₂]
        rw [hqp] at h
        split at h
        · cases h
        · rename_i k hk
          rw [hk, Except.ok.inj h]

/-! ## One call -/

section
variable {t₀ : Tree} {bases : Path → Prop} {mine : Int → Prop}

theorem stat_base_eq {t : Tree} {acqdir f c : Filename} (ht : Rely t₀ acqdir bases mine t₀ t)
    (hc : components f = [[], c, "acq_data".toList]) (h : next [] c = [c]) (hb : bases ["acq_data".toList, c]) :
    t.stat f = t₀.stat f := by
  refine ht.stat_eq hc h (by simp [next]) ?_
  rintro ⟨Q, -, ⟨rfl, -, -, hnot⟩ | ⟨b, -, he⟩⟩
  · exact hnot hb
  · exact beamName_ne_acq_data b (List.cons.inj he).1.symm

/-- What a call that gets that far leaves: the acquisition's directory with an empty one for each of its beams. -/
abbrev Started (t₀ : Tree) (acqdir : Filename) (bases : Path → Prop) (mine : Int → Prop) (beamIds : List Int)
    (u : Tree) : Prop := ∃ Q, Ready t₀ acqdir bases mine Q (· ∈ beamIds) u

theorem asAlone_checkAcqdir {base acqname : Filename} {beamIds : List Int} (hmine : ∀ b ∈ beamIds, mine b)
    (hbase : ∀ Q, Home t₀ (base ++ '/' :: acqname) Q → t₀.node Q = none → ¬ bases Q) :
    AsAlone t₀ (base ++ '/' :: acqname) bases mine (fun u => u = t₀)
      (fun r u => Solo t₀ (base ++ '/' :: acqname) bases mine u ∧
        (r = .ok () → Started t₀ (base ++ '/' :: acqname) bases mine beamIds u))
      (checkAcqdir base acqname beamIds true) := by
  have hbeams : AsAlone t₀ (base ++ '/' :: acqname) bases mine
      (fun u => ∃ Q, Ready t₀ (base ++ '/' :: acqname) bases mine Q (fun _ => False) u)
      (fun r u => Solo t₀ (base ++ '/' :: acqname) bases mine u ∧
        (r = .ok () → Started t₀ (base ++ '/' :: acqname) bases mine beamIds u))
      (checkBeamdirs (base ++ '/' :: acqname) true beamIds) := by
    refine follows_exists (fun Q => ?_)
    refine follows_mono (fun u hu => hu) ?_ (asAlone_checkBeamdirs beamIds _ hmine)
    rintro r u ⟨hsolo, hready⟩
    refine ⟨hsolo, fun hr => ⟨Q, hsolo, (hready hr).home, (hready hr).dir, fun b hb => (hready hr).clean b (.inl hb)⟩⟩
  refine asAlone_bind (asAlone_makedir_acqdir (by simp) hbase) (fun _ => ?_) (fun e u hu => ⟨hu.1, fun h => nomatch h⟩)
  refine follows_mono ?_ (fun _ _ h => h) hbeams
  rintro u ⟨hsolo, hdir⟩
  obtain ⟨Q, hQ, hdir⟩ := hdir rfl
  exact ⟨Q, hsolo, hQ, hdir, fun _ hb => hb.elim⟩

theorem asAlone_checkNfsBases {acqdir : Filename} : ∀ (streamIds : List Int), (∀ s ∈ streamIds, bases (nfsPath s)) →
    AsAlone t₀ acqdir bases mine (fun u => u = t₀) (fun _ u => u = t₀) (checkNfsBases streamIds)
  | [], _ => asAlone_ret _ (fun u hu => hu)
  | s :: streamIds, h => by
    refine asAlone_bind (follows_mono (fun u hu => hu) (fun _ _ h => h.1) (asAlone_checkAcqdirBase (fun u t hu ht => ?_)))
      (fun _ => asAlone_checkNfsBases streamIds (fun s' hs' => h s' (List.mem_cons_of_mem s hs'))) (fun e u hu => hu)
    subst hu
    exact stat_base_eq ht (components_nfsBase s) (next_archiver s) (h s (.head _))

theorem asAlone_startAt {base acqname : Filename} {beamIds : List Int} (pattern : Filename)
    (hmine : ∀ b ∈ beamIds, mine b)
    (hbase : ∀ Q, Home t₀ (base ++ '/' :: acqname) Q → t₀.node Q = none → ¬ bases Q) :
    AsAlone t₀ (base ++ '/' :: acqname) bases mine (fun u => u = t₀)
      (fun r u => Solo t₀ (base ++ '/' :: acqname) bases mine u ∧
        ∀ pat, r = .ok pat → pat ≠ [] → Started t₀ (base ++ '/' :: acqname) bases mine beamIds u)
      (do checkAcqdir base acqname beamIds true; pure pattern) := by
  refine asAlone_bind (asAlone_checkAcqdir hmine hbase) (fun _ => ?_) (fun e u hu => ⟨hu.1, fun _ h => nomatch h⟩)
  exact asAlone_ret _ (fun u hu => ⟨hu.1, fun _ _ _ => hu.2 rfl⟩)

def Checked (devname : Filename) (reqs : List Request) (q : Path) : Prop :=
  if strcaseeq devname "ssd".toList then q = ssdPath else ∃ r ∈ reqs, ∃ s ∈ r.streamIds, q = nfsPath s

/-- **One of the calls**, while the others go on. -/
theorem asAlone_start {devname acqname : Filename} {reqs : List Request} {r : Request} (hr : r ∈ reqs)
    (hmine : ∀ b ∈ r.beamIds, mine b) (hapart : strcaseeq devname "nfs".toList = true → Apart t₀ acqname reqs) :
    AsAlone t₀ (acqdir devname acqname) (Checked devname reqs) mine (fun u => u = t₀)
      (fun res u => Solo t₀ (acqdir devname acqname) (Checked devname reqs) mine u ∧ ∀ pat, res = .ok pat → pat ≠ [] →
        Started t₀ (acqdir devname acqname) (Checked devname reqs) mine r.beamIds u) (start devname acqname r) := by
  have hsolo : ∀ u, u = t₀ → Solo t₀ (acqdir devname acqname) (Checked devname reqs) mine u :=
    fun u hu => hu ▸ Grows.refl _ t₀
  unfold start acqnameToFilenamePattern
  split
  · exact asAlone_ret _ (fun u hu => ⟨hsolo u hu, fun pat hp hne => absurd (Except.ok.inj hp).symm hne⟩)
  split
  · rename_i hssd
    have hdir : acqdir devname acqname = ssdBase ++ '/' :: acqname := by rw [acqdir, if_pos hssd]
    have hchecked : ∀ q, Checked devname reqs q ↔ q = ssdPath := fun q => by rw [Checked, if_pos hssd]
    rw [hdir] at hsolo ⊢
    refine asAlone_bind (asAlone_checkAcqdirBase (fun u t hu ht => ?_)) (fun _ => ?_)
      (fun e u hu => ⟨hsolo u hu.1, fun _ h => nomatch h⟩)
    · subst hu
      exact stat_base_eq ht components_ssdBase (by simp [next]) ((hchecked _).2 rfl)
    · rintro u t ⟨rfl, hstat⟩ ht
      refine asAlone_startAt _ hmine (fun Q hQ hnone hb => ?_) u t rfl ht
      have hbase := node_of_stat components_ssdBase (by simp [next]) (by simp [next]) (hstat rfl)
      rw [(hchecked Q).1 hb, ssdPath, hbase] at hnone
      cases hnone
  · rename_i hssd
    have hdir : acqdir devname acqname = nfsBase 1 ++ '/' :: acqname := by rw [acqdir, if_neg hssd]
    have hchecked : ∀ q, Checked devname reqs q ↔ ∃ r ∈ reqs, ∃ s ∈ r.streamIds, q = nfsPath s :=
      fun q => by rw [Checked, if_neg hssd]
    rw [hdir] at hsolo ⊢
    split
    · rename_i hnfs
      refine asAlone_bind (asAlone_checkNfsBases r.streamIds (fun s hs => (hchecked _).2 ⟨r, hr, s, hs, rfl⟩)) (fun _ => ?_)
        (fun e u hu => ⟨hsolo u hu, fun _ h => nomatch h⟩)
      refine asAlone_startAt _ hmine (fun Q hQ hnone hb => ?_)
      obtain ⟨r', hr', s, hs, hQs⟩ := (hchecked Q).1 hb
      exact hapart hnfs Q hQ hnone r' hr' s hs hQs
    · exact asAlone_throw _ (fun u hu => ⟨hsolo u hu, fun _ h => nomatch h⟩)

end

/-! ## All the calls -/

def Disjoint (reqs : List Request) : Prop := reqs.Pairwise (fun r r' => ∀ b ∈ r.beamIds, b ∉ r'.beamIds)

instance (reqs : List Request) : Decidable (Disjoint reqs) :=
  inferInstanceAs (Decidable (reqs.Pairwise (fun r r' => ∀ b ∈ r.beamIds, b ∉ r'.beamIds)))

structure CanRecord (t : Tree) (acqdir : Filename) (beamIds : List Int) : Prop where
  dir   : ∃ q, t.walk [] (components acqdir) = .ok q ∧ t.node q = some .dir
  beams : ∀ b ∈ beamIds, ∃ q, t.walk [] (components (acqdir ++ '/' :: beamName b)) = .ok q ∧ t.node q = some .dir ∧
    t.children q = []

/-- What was there is there, unchanged; and only directories have been added, the acquisition's own and empty ones for
beams. -/
structure OnlyAdds (t₀ t : Tree) (acqdir : Filename) (reqs : List Request) : Prop where
  keeps : ∀ q k, t₀.node q = some k → t.node q = some k
  adds  : ∀ q, t₀.node q = none → t.node q ≠ none → t.node q = some .dir ∧
    (t.walk [] (components acqdir) = .ok q ∨ ∃ r ∈ reqs, ∃ b ∈ r.beamIds,
      t.walk [] (components (acqdir ++ '/' :: beamName b)) = .ok q ∧ t.children q = [])

section
variable {t₀ : Tree} {dir : Filename} {bases : Path → Prop}

theorem canRecord_of_started {mine beams : Int → Prop} {u t : Tree} {beamIds : List Int}
    (h : Started t₀ dir bases mine beamIds u) (ht : Grows (Places t₀ dir bases beams) u t)
    (hall : Grows (Places t₀ dir bases (fun _ => True)) t₀ t) : CanRecord t dir beamIds := by
  obtain ⟨Q, -, hhome, hdir, hclean⟩ := h
  have hQ : t.node Q = some .dir := ht.keeps Q _ hdir
  refine ⟨⟨Q, walk_acqdir hall hhome hQ, hQ⟩, fun b hb => ?_⟩
  have hb' := clean_grows hhome ht (hclean b hb)
  refine ⟨beamName b :: Q, walk_beamdir hall hhome hQ b, hb'.1, List.eq_nil_iff_forall_not_mem.2 (fun n hn => ?_)⟩
  exact (mem_children t _ n).1 hn (hb'.2 n)

theorem onlyAdds_of_grows {t : Tree} {reqs : List Request}
    (h : Grows (Places t₀ dir bases (fun b => ∃ r ∈ reqs, b ∈ r.beamIds)) t₀ t) : OnlyAdds t₀ t dir reqs := by
  refine ⟨h.keeps, fun q hnone hsome => ?_⟩
  obtain ⟨⟨Q, hQ, hplace⟩, hdir⟩ := h.adds q (by rw [hnone]; exact hsome)
  refine ⟨hdir, ?_⟩
  rcases hplace with ⟨rfl, -⟩ | ⟨b, ⟨r, hr, hb⟩, rfl⟩
  · exact .inl (walk_acqdir h hQ hdir)
  · refine .inr ⟨r, hr, b, hb, walk_beamdir h hQ (t.node_tail hdir) b, List.eq_nil_iff_forall_not_mem.2 (fun n hn => ?_)⟩
    -- what is in a beam's directory was there before, but the directory was not
    have hin := (mem_children t _ n).1 hn
    rw [h.node_eq (not_places_in_beam n b hQ)] at hin
    obtain ⟨k, hk⟩ := Option.ne_none_iff_exists'.1 hin
    have hpar := t₀.node_tail hk
    rw [List.tail_cons, hnone] at hpar
    cases hpar

end

/-- The beams of the `i`-th call. -/
def beamsOf (reqs : List Request) (i : Nat) (b : Int) : Prop := ∃ r, reqs[i]? = some r ∧ b ∈ r.beamIds

theorem beamsOf_disjoint {reqs : List Request} (h : Disjoint reqs) {i j : Nat} (hij : i ≠ j) {b : Int}
    (hi : beamsOf reqs i b) : ¬ beamsOf reqs j b := by
  rintro ⟨r', hr', hb'⟩
  obtain ⟨r, hr, hb⟩ := hi
  obtain ⟨hil, rfl⟩ := List.getElem?_eq_some_iff.1 hr
  obtain ⟨hjl, rfl⟩ := List.getElem?_eq_some_iff.1 hr'
  rcases Nat.lt_or_gt_of_ne hij with hlt | hlt
  · exact List.pairwise_iff_getElem.1 h i j hil hjl hlt b hb hb'
  · exact List.pairwise_iff_getElem.1 h j i hjl hil hlt b hb' hb

/-- **A new acquisition overwrites nothing**, however the calls are interleaved.  Each call ends as it would alone; one
that gives a filename pattern leaves directories that can be recorded to; and, at every moment and whichever calls
fail, nothing has been removed or changed and only directories have been added. -/
theorem acquisitions_start_as_if_alone (t₀ : Tree) (devname acqname : Filename) (reqs : List Request)
    (hdisjoint : Disjoint reqs) (hapart : strcaseeq devname "nfs".toList = true → Apart t₀ acqname reqs)
    (sched : List Nat) (x : Tree × List (Sys Filename))
    (hrun : run (stepPool perform) (t₀, reqs.map (start devname acqname)) sched = some x) :
    (∀ (i : Nat) r res, reqs[i]? = some r → x.2[i]?.bind outcome = some res →
      res = (solo perform (start devname acqname r) t₀).1 ∧
      ∀ pat, res = .ok pat → pat ≠ [] → CanRecord x.1 (acqdir devname acqname) r.beamIds) ∧
    OnlyAdds t₀ x.1 (acqdir devname acqname) reqs := by
  have hGR : ∀ i j, i ≠ j → ∀ s s',
      Guarantee t₀ (acqdir devname acqname) (Checked devname reqs) (beamsOf reqs i) s s' →
      Rely t₀ (acqdir devname acqname) (Checked devname reqs) (beamsOf reqs j) s s' :=
    fun i j hij s s' h => h.mono (places_mono (fun b hb => beamsOf_disjoint hdisjoint hij hb))
  have hok : PoolOk perform
      (fun i => Guarantee t₀ (acqdir devname acqname) (Checked devname reqs) (beamsOf reqs i))
      (fun i => Rely t₀ (acqdir devname acqname) (Checked devname reqs) (beamsOf reqs i))
      (fun i res s => ∀ r, reqs[i]? = some r → res = (solo perform (start devname acqname r) t₀).1 ∧
        ∀ pat, res = .ok pat → pat ≠ [] → CanRecord s (acqdir devname acqname) r.beamIds)
      (t₀, reqs.map (start devname acqname)) := by
    intro i p hp
    rw [List.getElem?_map, Option.map_eq_some_iff] at hp
    obtain ⟨r, hr, rfl⟩ := hp
    have hmine : ∀ b ∈ r.beamIds, beamsOf reqs i b := fun b hb => ⟨r, hr, hb⟩
    refine wp_mono (fun res s h r' hr' => ?_) _ _
      (asAlone_start (List.mem_of_getElem? hr) hmine hapart t₀ t₀ rfl (Grows.refl _ t₀))
    obtain rfl : r = r' := Option.some.inj (hr.symm.trans hr')
    obtain ⟨hres, hrely, hsolo, hstarted⟩ := h
    exact ⟨hres, fun pat hpat hne =>
      canRecord_of_started (hstarted pat (hres ▸ hpat) hne) hrely (grows_all hsolo hrely)⟩
  constructor
  · intro i r res hr hres
    obtain ⟨p, hp, hres⟩ := Option.bind_eq_some_iff.1 hres
    exact wp_pool (fun _ s => Grows.refl _ s) (fun _ => rely_trans) hGR sched _ x hok hrun i p res hp hres r hr
  · have hgrows : Grows (Places t₀ (acqdir devname acqname) (Checked devname reqs)
        (fun b => ∃ r ∈ reqs, b ∈ r.beamIds)) t₀ x.1 := by
      refine guarantee_pool (fun _ s => Grows.refl _ s) (fun _ => rely_trans) hGR (fun i s s' h => ?_)
        (fun s => Grows.refl _ s) (fun _ _ _ h h' => h.trans h') sched _ x hok hrun
      refine h.mono (places_mono (fun b hb => ?_))
      obtain ⟨r, hr, hb⟩ := hb
      exact ⟨r, List.mem_of_getElem? hr, hb⟩
    exact onlyAdds_of_grows hgrows

/-- Two archivers, the second without an `acq_data`. -/
def archivers : Tree where
  entries  := [([], .dir), (["frb-archiver-1".toList], .dir), (["acq_data".toList, "frb-archiver-1".toList], .dir),
    (["frb-archiver-2".toList], .dir)]
  fault    := fun _ => none
  noCreate := fun _ => none
  noList   := fun _ => none
  root     := rfl
  closed   := by decide

/-- Two calls race for the acquisition's directory; a third finds its base directory missing. -/
theorem acquisitions_start_as_if_alone_race :
    let reqs : List Request := [⟨[1], [0]⟩, ⟨[1], [1]⟩, ⟨[2], [2]⟩]
    let pattern := "/frb-archiver-(STREAM)/acq_data/run1/beam_(BEAM)/chunk_(CHUNK).msg".toList
    let x := (run (stepPool perform) (archivers, reqs.map (start "nfs".toList "run1".toList))
      [0, 1, 2, 0, 1, 0, 1, 1, 0, 1, 0, 1]).get (by decide +kernel)
    (x.2[0]?.bind outcome = some (.ok pattern) ∧ CanRecord x.1 (acqdir "nfs".toList "run1".toList) [0]) ∧
      (x.2[1]?.bind outcome = some (.ok pattern) ∧ CanRecord x.1 (acqdir "nfs".toList "run1".toList) [1]) ∧
      OnlyAdds archivers x.1 (acqdir "nfs".toList "run1".toList) reqs := by
  intro reqs pattern x
  have hapart : Apart archivers "run1".toList reqs :=
    apart_of_plain archivers reqs ⟨'r', by decide, by decide⟩ (by decide +kernel)
  obtain ⟨h, hadds⟩ := acquisitions_start_as_if_alone archivers "nfs".toList "run1".toList reqs (by decide)
    (fun _ => hapart) _ x (Option.some_get _).symm
  have h₀ : x.2[0]?.bind outcome = some (.ok pattern) := by decide +kernel
  have h₁ : x.2[1]?.bind outcome = some (.ok pattern) := by decide +kernel
  exact ⟨⟨h₀, (h 0 ⟨[1], [0]⟩ _ rfl h₀).2 pattern rfl (by decide)⟩,
    ⟨h₁, (h 1 ⟨[1], [1]⟩ _ rfl h₁).2 pattern rfl (by decide)⟩, hadds⟩

/-- **An acquisition that makes a base directory.**  The first of two calls makes its acquisition's directory where the
second, which would fail alone, looks for a base directory. -/
theorem acquisition_makes_base :
    let acqname := "../../frb-archiver-2/acq_data".toList
    let reqs : List Request := [⟨[1], [0]⟩, ⟨[2], [1]⟩]
    let x := (run (stepPool perform) (archivers, reqs.map (start "nfs".toList acqname))
      [0, 0, 0, 1, 1, 1, 1, 1, 1]).get (by decide +kernel)
    Disjoint reqs ∧
      x.2[1]?.bind outcome = some (.ok ("/frb-archiver-(STREAM)/acq_data/../../frb-archiver-2/acq_data".toList ++
        "/beam_(BEAM)/chunk_(CHUNK).msg".toList)) ∧
      (solo perform (start "nfs".toList acqname ⟨[2], [1]⟩) archivers).1 = .error ("ch-frb-l1: acqdir_base ".toList ++
        "/frb-archiver-2/acq_data does not exist (probably need to mount device)".toList) := by
  intro acqname reqs x
  exact ⟨by decide, by decide +kernel, by decide +kernel⟩

end FileUtils
end FrbL1
