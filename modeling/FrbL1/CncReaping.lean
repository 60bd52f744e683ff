import Mathlib.Data.List.Nodup
import Mathlib.Data.List.Perm.Subperm
/-!
# CncReaping — the idle pass of the cnc daemon

When its poll times out, the daemon asks each launched process whether it has terminated, and removes it if so.  It
removes it from the list that its loop goes over, by index: the process behind a removed one moves into its place, and
the loop goes on with the one after that.  So the pass asks each process once only if it removes none but the last
(`reaps_iff`).
-/
namespace FrbL1
namespace Cnc

/-- `launched_procs`: the processes in the order in which they were launched, each a `Popen` object of its own.  `next`
is the next such object. -/
structure Launched where
  procs : List Nat
  next  : Nat
  nodup : procs.Nodup
  fresh : ∀ p ∈ procs, p < next

def Launched.init : Launched := ⟨[], 0, List.nodup_nil, fun _ h => nomatch h⟩

/-- `launched_procs.append(p)`. -/
def Launched.append (l : Launched) : Launched where
  procs := l.procs ++ [l.next]
  next  := l.next + 1
  nodup := by
    refine List.nodup_append'.2 ⟨l.nodup, List.nodup_singleton _, fun p hp hnext => ?_⟩
    obtain rfl := List.mem_singleton.1 hnext
    exact Nat.lt_irrefl _ (l.fresh _ hp)
  fresh := by
    intro p hp
    rcases List.mem_append.1 hp with hp | hp
    · exact Nat.lt_succ_of_lt (l.fresh p hp)
    · exact Nat.lt_succ_of_le (Nat.le_of_eq (List.mem_singleton.1 hp))

section
variable (terminated : Nat → Bool)

/-- The list after `p` has been polled. -/
def removed (procs : List Nat) (p : Nat) : List Nat :=
  if terminated p then procs.erase p else procs

theorem removed_sublist (procs : List Nat) (p : Nat) : (removed terminated procs p).Sublist procs := by
  unfold removed
  split
  · exact List.erase_sublist
  · exact List.Sublist.refl _

/-- `for p in launched_procs`, from the index `i` on: what is left of the list, and the processes that are polled. -/
def reapFrom (procs : List Nat) (i : Nat) : List Nat × List Nat :=
  if h : i < procs.length then
    let r := reapFrom (removed terminated procs procs[i]) (i + 1)
    (r.1, procs[i] :: r.2)
  else (procs, [])
termination_by procs.length - i
decreasing_by
  have hle : (removed terminated procs procs[i]).length ≤ procs.length := (removed_sublist _ _ _).length_le
  omega

theorem reapFrom_sublist (procs : List Nat) (i : Nat) : (reapFrom terminated procs i).1.Sublist procs := by
  fun_induction reapFrom terminated procs i with
  | case1 procs i h r ih => exact ih.trans (removed_sublist _ _ _)
  | case2 procs i h => exact List.Sublist.refl _

/-- The pass after a poll that has timed out. -/
def Launched.idlePass (l : Launched) : Launched where
  procs := (reapFrom terminated l.procs 0).1
  next  := l.next
  nodup := l.nodup.sublist (reapFrom_sublist terminated _ _)
  fresh := fun p hp => l.fresh p ((reapFrom_sublist terminated _ _).subset hp)

def Launched.polled (l : Launched) : List Nat := (reapFrom terminated l.procs 0).2

/-- **The pass reaps**: what is left are the processes that had not terminated, and each has been polled once. -/
structure Launched.Reaps (l : Launched) : Prop where
  procs  : (l.idlePass terminated).procs = l.procs.filter (fun p => !terminated p)
  polled : ∀ p ∈ l.procs, (l.polled terminated).count p = 1

/-! ## What the loop does with the processes it has not come to -/

def reap : List Nat → List Nat × List Nat
  | []             => ([], [])
  | [p]            => (if terminated p then [] else [p], [p])
  | p :: q :: rest =>
    if terminated p then (q :: (reap rest).1, p :: (reap rest).2)
    else (p :: (reap (q :: rest)).1, p :: (reap (q :: rest)).2)

variable {terminated}

theorem removed_append_cons {before rest : List Nat} {p : Nat} (h : (before ++ p :: rest).Nodup) :
    removed terminated (before ++ p :: rest) p = before ++ if terminated p then rest else p :: rest := by
  have hp : p ∉ before := fun hp => (List.nodup_append'.1 h).2.2 hp (.head _)
  unfold removed
  split
  · rw [List.erase_append_right _ hp, List.erase_cons_head]
  · rfl

theorem reapFrom_append_cons {before rest : List Nat} {p : Nat} (h : (before ++ p :: rest).Nodup) :
    reapFrom terminated (before ++ p :: rest) before.length =
      let r := reapFrom terminated (before ++ if terminated p then rest else p :: rest) (before.length + 1)
      (r.1, p :: r.2) := by
  have hlt : before.length < (before ++ p :: rest).length := by
    rw [List.length_append, List.length_cons]
    omega
  have hp : (before ++ p :: rest)[before.length] = p := by
    rw [List.getElem_append_right (Nat.le_refl _)]
    simp only [Nat.sub_self, List.getElem_cons_zero]
  rw [reapFrom, dif_pos hlt]
  simp only [hp, removed_append_cons h]

theorem reapFrom_end {procs : List Nat} {i : Nat} (h : procs.length ≤ i) : reapFrom terminated procs i = (procs, []) := by
  rw [reapFrom, dif_neg (Nat.not_lt.2 h)]

theorem append_singleton_cons (before rest : List Nat) (p : Nat) : before ++ p :: rest = (before ++ [p]) ++ rest := by
  rw [List.append_assoc]
  rfl

/-- **Where the loop stands**, what is behind it does not matter. -/
theorem reapFrom_append : ∀ (rest before : List Nat), (before ++ rest).Nodup →
    reapFrom terminated (before ++ rest) before.length = (before ++ (reap terminated rest).1, (reap terminated rest).2)
  | [], before, _ => by
    rw [List.append_nil, reapFrom_end (Nat.le_refl _), reap, List.append_nil]
  | [p], before, h => by
    rw [reapFrom_append_cons h, reapFrom_end, reap]
    split <;> simp
  | p :: q :: rest, before, h => by
    rw [reapFrom_append_cons h, reap]
    have hlen : ∀ x : Nat, before.length + 1 = (before ++ [x]).length := fun x => by
      rw [List.length_append, List.length_singleton]
    split
    · have hnd : ((before ++ [q]) ++ rest).Nodup := by
        rw [← append_singleton_cons]
        exact h.sublist ((List.sublist_cons_self _ _).append_left _)
      rw [append_singleton_cons before rest q, hlen q, reapFrom_append rest (before ++ [q]) hnd, ← append_singleton_cons]
    · rw [append_singleton_cons before (q :: rest) p] at h ⊢
      rw [hlen p, reapFrom_append (q :: rest) (before ++ [p]) h, ← append_singleton_cons]

/-! ## The processes that are polled -/

theorem reap_sublist : ∀ procs : List Nat, (reap terminated procs).2.Sublist procs
  | []             => List.Sublist.refl _
  | [p]            => List.Sublist.refl _
  | p :: q :: rest => by
    rw [reap]
    split
    · exact ((reap_sublist rest).cons q).cons_cons p
    · exact (reap_sublist (q :: rest)).cons_cons p

/-- **None is left out** if and only if none but the last is removed. -/
theorem reap_eq_self_iff : ∀ {procs : List Nat}, procs.Nodup →
    ((reap terminated procs).2 = procs ↔ ∀ p ∈ procs.dropLast, terminated p = false)
  | [], _ => iff_of_true rfl (List.forall_mem_nil _)
  | [p], _ => iff_of_true rfl (List.forall_mem_nil _)
  | p :: q :: rest, h => by
    have hnd : (q :: rest).Nodup := (List.nodup_cons.1 h).2
    rw [List.dropLast_cons_cons, List.forall_mem_cons, reap]
    split
    · rename_i hp
      refine iff_of_false (fun heq => ?_) (fun hall => ?_)
      · have hq : q ∈ (reap terminated rest).2 := (List.cons.inj heq).2 ▸ .head _
        exact (List.nodup_cons.1 hnd).1 ((reap_sublist rest).subset hq)
      · rw [hp] at hall
        cases hall.1
    · rename_i hp
      rw [List.cons_inj_right, reap_eq_self_iff hnd]
      exact (and_iff_right (Bool.eq_false_iff.2 hp)).symm

theorem reap_eq_filter : ∀ {procs : List Nat}, (∀ p ∈ procs.dropLast, terminated p = false) →
    (reap terminated procs).1 = procs.filter (fun p => !terminated p)
  | [], _ => rfl
  | [p], _ => by
    rw [reap, List.filter_singleton]
    cases terminated p <;> rfl
  | p :: q :: rest, h => by
    rw [List.dropLast_cons_cons, List.forall_mem_cons] at h
    rw [reap, if_neg (Bool.eq_false_iff.1 h.1), List.filter_cons_of_pos (by rw [h.1]; rfl), ← reap_eq_filter h.2]

theorem count_eq_one_iff {polled procs : List Nat} (hsub : polled.Sublist procs) (hnd : procs.Nodup) :
    (∀ p ∈ procs, polled.count p = 1) ↔ polled = procs := by
  constructor
  · intro h
    have hall : procs ⊆ polled := fun p hp => List.count_pos_iff.1 (by rw [h p hp]; decide)
    exact hsub.eq_of_length_le (hnd.subperm hall).length_le
  · rintro rfl p hp
    exact List.count_eq_one_of_mem hnd hp

end

namespace Launched

variable (l : Launched) (terminated : Nat → Bool)

theorem reapFrom_procs : reapFrom terminated l.procs 0 = reap terminated l.procs :=
  reapFrom_append l.procs [] l.nodup

theorem idlePass_procs : (l.idlePass terminated).procs = (reap terminated l.procs).1 :=
  congrArg Prod.fst (reapFrom_procs l terminated)

theorem polled_eq : l.polled terminated = (reap terminated l.procs).2 := congrArg Prod.snd (reapFrom_procs l terminated)

/-- **The idle pass reaps** if and only if no process but the last has terminated. -/
theorem reaps_iff : l.Reaps terminated ↔ ∀ p ∈ l.procs.dropLast, terminated p = false := by
  rw [← reap_eq_self_iff l.nodup, ← count_eq_one_iff (reap_sublist _) l.nodup, ← polled_eq]
  refine ⟨fun h => h.polled, fun h => ⟨?_, h⟩⟩
  rw [polled_eq, count_eq_one_iff (reap_sublist _) l.nodup, reap_eq_self_iff l.nodup] at h
  rw [idlePass_procs, reap_eq_filter h]

/-- **Two processes that have both terminated**: the second one is left. -/
theorem not_reaps_both : ¬ ∀ (l : Launched) (terminated : Nat → Bool), l.Reaps terminated := by
  intro h
  have hprocs := (h Launched.init.append.append (fun _ => true)).procs
  rw [idlePass_procs] at hprocs
  revert hprocs
  decide

end Launched
end Cnc
end FrbL1
