import FrbL1.Fallible
import FrbL1.FileUtils
import FrbL1.Template
import Mathlib.Algebra.Ring.Int.Defs
import Mathlib.Algebra.Ring.Nat
import Mathlib.Data.List.Dedup
/-!
# L0Nodes — the senders of the packets, sorted and named

`sort_l0_nodes` of the web application.  A sender is an address with a port, in text.  The functions take the text
apart, and for the text of a `Sender` they give what it is the text of (`numip_ip`, `dnsname_ip`).  Two addresses have
two names (`name_inj`), so that the names are distinct once the ports are with them (`nodup_labels`).
-/
namespace FrbL1
namespace Webapp

open Fallible (mapM_eq_some)
open Template (cut_first cut_last)

/-! ## Text -/

def split (c : Char) (s : List Char) : List (List Char) := s.splitOn c

def join (c : Char) (parts : List (List Char)) : List Char := [c].intercalate parts

def isSpace (c : Char) : Bool := (9 ≤ c.toNat ∧ c.toNat ≤ 13) ∨ (28 ≤ c.toNat ∧ c.toNat ≤ 32)

/-- Digits, with single underscores between them. -/
def digits (s : List Char) : Option Nat :=
  if (split '_' s).all (fun part => part ≠ [] ∧ part.all Char.isDigit) then
    some (Nat.ofDigitChars 10 (split '_' s).flatten 0)
  else none

/-- `int(s)`, for ASCII text; `none` is a `ValueError`. -/
def int (s : List Char) : Option Int :=
  match ((s.dropWhile isSpace).reverse.dropWhile isSpace).reverse with
  | '-' :: s => (digits s).map (fun n => -(n : Int))
  | '+' :: s => (digits s).map (fun n => (n : Int))
  | s        => (digits s).map (fun n => (n : Int))

/-! ## `sort_l0_nodes` -/

/-- The first eight bits are those of the last part. -/
def numip (ip : List Char) : Option Int := do
  let parts ← (split '.' ip).reverse.mapM int
  return (parts.mapIdx (fun i n => n * 2 ^ (i * 8))).sum

/-- `'c%s%xg%i' % (ns, rack, pos)` -/
def rackName (ns : Char) (rack pos : Int) : List Char :=
  'c' :: ns :: (Nat.toDigits 16 rack.toNat ++ 'g' :: FileUtils.toString pos)

/-- The name of an address, which is the address itself for most. -/
def dnsname (ip : List Char) : Option (List Char) := do
  let nums ← (split '.' ip).mapM int
  if (← nums[0]?) ≠ 10 then return ip
  if (← nums[1]?) ≠ 1 then return ip
  let digit ← nums[2]?
  let north := decide (0 ≤ digit ∧ digit ≤ 14)
  let south := decide (100 ≤ digit ∧ digit ≤ 114)
  if !(north || south) then return ip
  let pos ← nums[3]?
  if ¬ (10 ≤ pos ∧ pos ≤ 19) then return ip
  return if north then rackName 'n' digit pos else rackName 's' (digit - 100) pos

/-- `sort_l0_nodes`; `none` is an exception. -/
def sortL0Nodes (argsort : List Int → List Nat) (senders : List (List Char)) :
    Option (List (List Char) × List (List Char)) := do
  let senderIps := senders.map (fun s => (split ':' s).headD [])
  let senderPorts ← senders.mapM (fun s => (split ':' s)[1]?)
  let nums ← senderIps.mapM numip
  let dnsnames ← senderIps.mapM dnsname
  let order := argsort nums
  let sorted ← order.mapM (fun i => senders[i]?)
  let senderNames ← order.mapM (fun i => dnsnames[i]?)
  if senderNames.dedup.length ≠ order.length then
    return (sorted, ← order.mapM (fun i => do return (← dnsnames[i]?) ++ ':' :: (← senderPorts[i]?)))
  else return (sorted, senderNames)

/-! ## Addresses -/

structure Sender where
  a    : Nat
  b    : Nat
  c    : Nat
  d    : Nat
  port : Nat
  deriving DecidableEq

namespace Sender

abbrev decimal (n : Nat) : List Char := Nat.toDigits 10 n

def ip (x : Sender) : List Char := join '.' [decimal x.a, decimal x.b, decimal x.c, decimal x.d]

/-- `a.b.c.d:port` -/
def text (x : Sender) : List Char := join ':' [x.ip, decimal x.port]

def num (x : Sender) : Nat := x.a * 2 ^ 24 + x.b * 2 ^ 16 + x.c * 2 ^ 8 + x.d

def InRack (x : Sender) : Prop :=
  x.a = 10 ∧ x.b = 1 ∧ (x.c ≤ 14 ∨ 100 ≤ x.c ∧ x.c ≤ 114) ∧ 10 ≤ x.d ∧ x.d ≤ 19

instance decidableInRack (x : Sender) : Decidable x.InRack := inferInstanceAs (Decidable (_ ∧ _))

def name (x : Sender) : List Char :=
  if x.InRack then if x.c ≤ 14 then rackName 'n' x.c x.d else rackName 's' ((x.c : Int) - 100) x.d else x.ip

end Sender

/-! ## Taking texts apart -/

theorem not_isSpace_of_isDigit {c : Char} (h : c.isDigit = true) : isSpace c = false := by
  unfold Char.isDigit at h
  unfold isSpace
  simp only [Bool.and_eq_true, decide_eq_true_eq] at h
  have hlo : 48 ≤ c.toNat := h.1
  simp only [Bool.or_eq_false_iff, decide_eq_false_iff_not, Bool.decide_or]
  omega

theorem dropWhile_isSpace {s : List Char} (h : ∀ c ∈ s, c.isDigit = true) : s.dropWhile isSpace = s := by
  cases s with
  | nil => rfl
  | cons c s => rw [List.dropWhile_cons_of_neg (by simp [not_isSpace_of_isDigit (h c (.head _))])]

theorem split_of_notMem {c : Char} {s : List Char} (h : c ∉ s) : split c s = [s] := by
  have hjoin : [c].intercalate [s] = s := by simp [List.intercalate]
  unfold split
  conv => lhs; rw [← hjoin]
  exact List.splitOn_intercalate c (fun l hl => by rwa [List.mem_singleton.1 hl]) (List.cons_ne_nil _ _)

theorem split_join {c : Char} {parts : List (List Char)} (h : ∀ part ∈ parts, c ∉ part) (hne : parts ≠ []) :
    split c (join c parts) = parts := List.splitOn_intercalate c h hne

theorem int_decimal (n : Nat) : int (Sender.decimal n) = some (n : Int) := by
  have hdigit : ∀ c ∈ Sender.decimal n, c.isDigit = true := fun c hc => Digits.isDigit_of_mem hc
  have hne : Sender.decimal n ≠ [] := Nat.toDigits_ne_nil
  have hstrip : (((Sender.decimal n).dropWhile isSpace).reverse.dropWhile isSpace).reverse = Sender.decimal n := by
    rw [dropWhile_isSpace hdigit, dropWhile_isSpace (fun c hc => hdigit c (List.mem_reverse.1 hc)), List.reverse_reverse]
  have hdigits : digits (Sender.decimal n) = some n := by
    unfold digits
    rw [split_of_notMem (Digits.notMem (by decide) n), if_pos ?_]
    · simp
    · simpa [hne] using hdigit
  unfold int
  rw [hstrip]
  split
  · rename_i s hs
    exact absurd (show '-' ∈ Sender.decimal n by rw [hs]; exact .head _) (Digits.notMem (by decide) n)
  · rename_i s hs
    exact absurd (show '+' ∈ Sender.decimal n by rw [hs]; exact .head _) (Digits.notMem (by decide) n)
  · rw [hdigits]
    rfl

namespace Sender

variable (x y : Sender)

theorem split_ip : split '.' x.ip = [decimal x.a, decimal x.b, decimal x.c, decimal x.d] := by
  apply split_join
  · intro part hpart
    simp only [List.mem_cons, List.not_mem_nil, or_false] at hpart
    rcases hpart with rfl | rfl | rfl | rfl <;> exact Digits.notMem (by decide) _
  · exact List.cons_ne_nil _ _

theorem colon_notMem_ip : ':' ∉ x.ip := by
  have hdec : ∀ n, ':' ∉ decimal n := Digits.notMem (by decide)
  simp [ip, join, List.intercalate, hdec]

theorem split_text : split ':' x.text = [x.ip, decimal x.port] := by
  apply split_join
  · intro part hpart
    simp only [List.mem_cons, List.not_mem_nil, or_false] at hpart
    rcases hpart with rfl | rfl
    · exact colon_notMem_ip x
    · exact Digits.notMem (by decide) _
  · exact List.cons_ne_nil _ _

theorem ints_ip : (split '.' x.ip).mapM int = some [(x.a : Int), x.b, x.c, x.d] := by
  rw [split_ip]
  simp [int_decimal]

theorem ip_inj {x y : Sender} (h : x.ip = y.ip) : x.a = y.a ∧ x.b = y.b ∧ x.c = y.c ∧ x.d = y.d := by
  have hsplit := (split_ip x).symm.trans ((congrArg (split '.') h).trans (split_ip y))
  simp only [List.cons.injEq, and_true] at hsplit
  exact ⟨Digits.inj hsplit.1, Digits.inj hsplit.2.1, Digits.inj hsplit.2.2.1, Digits.inj hsplit.2.2.2⟩

theorem text_injective : Function.Injective text := by
  intro x y h
  have hsplit := (split_text x).symm.trans ((congrArg (split ':') h).trans (split_text y))
  simp only [List.cons.injEq, and_true] at hsplit
  obtain ⟨ha, hb, hc, hd⟩ := ip_inj hsplit.1
  have hport := Digits.inj hsplit.2
  cases x
  cases y
  simp only [mk.injEq]
  exact ⟨ha, hb, hc, hd, hport⟩

theorem numip_ip : numip x.ip = some (x.num : Int) := by
  unfold numip
  rw [split_ip]
  simp [int_decimal, num]
  omega

theorem dnsname_ip : dnsname x.ip = some x.name := by
  unfold dnsname name
  rw [ints_ip]
  simp only [Option.bind_eq_bind, Option.bind_some, List.getElem?_cons_zero, List.getElem?_cons_succ, Option.pure_def]
  have hnorth : (0 ≤ (x.c : Int) ∧ (x.c : Int) ≤ 14) ↔ x.c ≤ 14 := by omega
  have hsouth : (100 ≤ (x.c : Int) ∧ (x.c : Int) ≤ 114) ↔ 100 ≤ x.c ∧ x.c ≤ 114 := by omega
  simp only [hnorth, hsouth, decide_eq_true_eq]
  by_cases h : x.InRack
  · obtain ⟨ha, hb, hc, hd⟩ := id h
    rw [if_neg (by omega), if_neg (by omega), if_neg (by simpa [or_iff_not_imp_left] using hc), if_neg (by omega), if_pos h]
  · rw [if_neg h]
    split
    · rfl
    split
    · rfl
    split
    · rfl
    split
    · rfl
    rename_i ha hb hc hd
    refine absurd ⟨by omega, by omega, ?_, by omega⟩ h
    simpa [or_iff_not_imp_left] using hc

/-! ### Different names -/

theorem ip_head : ∃ c s, x.ip = c :: s ∧ c.isDigit = true := by
  obtain ⟨c, s, hs⟩ := List.exists_cons_of_ne_nil (show decimal x.a ≠ [] from Nat.toDigits_ne_nil)
  have hdigit : c.isDigit = true := Digits.isDigit_of_mem (show c ∈ decimal x.a by rw [hs]; exact .head _)
  refine ⟨c, s ++ '.' :: join '.' [decimal x.b, decimal x.c, decimal x.d], ?_, hdigit⟩
  unfold ip
  simp [join, List.intercalate, hs]

end Sender

theorem rackName_inj {ns ns' : Char} {rack rack' pos pos' : Nat} (hr : rack < 15) (hr' : rack' < 15)
    (h : rackName ns rack pos = rackName ns' rack' pos') : ns = ns' ∧ rack = rack' ∧ pos = pos' := by
  have hg : ∀ r < 15, 'g' ∉ Nat.toDigits 16 r := by decide
  have hhex : ∀ r < 15, ∀ r' < 15, Nat.toDigits 16 r = Nat.toDigits 16 r' → r = r' := by decide
  unfold rackName at h
  simp only [List.cons.injEq, true_and, Int.toNat_natCast] at h
  obtain ⟨hrack, hpos⟩ := cut_first (hg rack hr) (hg rack' hr') h.2
  refine ⟨h.1, hhex rack hr rack' hr' hrack, ?_⟩
  unfold FileUtils.toString at hpos
  rw [if_neg (by omega), if_neg (by omega)] at hpos
  exact Digits.inj hpos

namespace Sender

theorem name_inRack {x : Sender} (h : x.InRack) : ∃ (ns : Char) (rack : Nat), x.name = rackName ns rack x.d ∧
    rack < 15 ∧ x.c = if ns = 'n' then rack else rack + 100 := by
  obtain ⟨-, -, hc, -⟩ := id h
  unfold name
  rw [if_pos h]
  by_cases hnorth : x.c ≤ 14
  · exact ⟨'n', x.c, if_pos hnorth, by omega, rfl⟩
  · have hsub : ((x.c - 100 : Nat) : Int) = (x.c : Int) - 100 := by omega
    refine ⟨'s', x.c - 100, ?_, by omega, ?_⟩
    · rw [if_neg hnorth, hsub]
    · rw [if_neg (by decide)]
      omega

theorem name_of_not_inRack {x : Sender} (h : ¬ x.InRack) : x.name = x.ip := if_neg h

theorem ip_ne_rackName (x : Sender) (ns : Char) (rack pos : Int) : x.ip ≠ rackName ns rack pos := fun heq => by
  obtain ⟨c, s, hs, hdigit⟩ := x.ip_head
  rw [hs] at heq
  rw [(List.cons.inj heq).1] at hdigit
  exact absurd hdigit (by decide)

theorem name_inj {x y : Sender} (h : x.name = y.name) : x.a = y.a ∧ x.b = y.b ∧ x.c = y.c ∧ x.d = y.d := by
  by_cases hx : x.InRack <;> by_cases hy : y.InRack
  · obtain ⟨ns, rack, hname, hlt, hc⟩ := name_inRack hx
    obtain ⟨ns', rack', hname', hlt', hc'⟩ := name_inRack hy
    rw [hname, hname'] at h
    obtain ⟨rfl, rfl, hd⟩ := rackName_inj hlt hlt' h
    exact ⟨hx.1.trans hy.1.symm, hx.2.1.trans hy.2.1.symm, hc.trans hc'.symm, hd⟩
  · obtain ⟨ns, rack, hname, -⟩ := name_inRack hx
    rw [hname, name_of_not_inRack hy] at h
    exact absurd h.symm (ip_ne_rackName y _ _ _)
  · obtain ⟨ns, rack, hname, -⟩ := name_inRack hy
    rw [hname, name_of_not_inRack hx] at h
    exact absurd h (ip_ne_rackName x _ _ _)
  · rw [name_of_not_inRack hx, name_of_not_inRack hy] at h
    exact ip_inj h

def label (x : Sender) : List Char := x.name ++ ':' :: decimal x.port

theorem label_injective : Function.Injective label := by
  intro x y h
  obtain ⟨hname, hport⟩ := cut_last (Digits.notMem (by decide) _) (Digits.notMem (by decide) _) h
  obtain ⟨ha, hb, hc, hd⟩ := name_inj hname
  have hp := Digits.inj hport
  cases x
  cases y
  simp only [mk.injEq]
  exact ⟨ha, hb, hc, hd, hp⟩

end Sender

/-! ## The senders in order -/

/-- The documented behaviour of `numpy.argsort`. -/
structure IsArgsort (argsort : List Int → List Nat) : Prop where
  perm   : ∀ l, (argsort l).Perm (List.range l.length)
  sorted : ∀ l, (argsort l).Pairwise (fun i j => l.getD i 0 ≤ l.getD j 0)

/-- The names, with the ports if they are not distinct without. -/
def labels (senders : List Sender) : List (List Char) :=
  if (senders.map Sender.name).Nodup then senders.map Sender.name else senders.map Sender.label

theorem nodup_labels {senders : List Sender} (h : senders.Nodup) : (labels senders).Nodup := by
  unfold labels
  split
  · assumption
  · exact h.map Sender.label_injective

theorem map_getD_range {α : Type} (l : List α) (a : α) : (List.range l.length).map (fun i => l.getD i a) = l := by
  refine List.ext_getElem? (fun i => ?_)
  by_cases hi : i < l.length
  · simp [hi]
  · simp [hi]

theorem length_dedup_iff {l : List (List Char)} : l.dedup.length = l.length ↔ l.Nodup := by
  constructor
  · intro h
    exact List.dedup_eq_self.1 ((List.dedup_sublist l).eq_of_length h)
  · intro h
    rw [List.dedup_eq_self.2 h]

theorem mapM_getElem? {α β : Type} {l : List α} (f : α → β) (a : α) {order : List Nat}
    (h : order.Perm (List.range l.length)) : order.mapM (fun i => (l.map f)[i]?) =
      some ((order.map (fun i => l.getD i a)).map f) := by
  rw [List.map_map]
  refine mapM_eq_some (fun i hi => ?_)
  have hlt : i < l.length := List.mem_range.1 (h.mem_iff.1 hi)
  simp [hlt]

/-- **Senders in text are sorted and named.** -/
theorem sortL0Nodes_text {argsort : List Int → List Nat} (hsort : IsArgsort argsort) (senders : List Sender) :
    ∃ sorted : List Sender, sorted.Perm senders ∧ sorted.Pairwise (fun x y => x.num ≤ y.num) ∧
      sortL0Nodes argsort (senders.map Sender.text) = some (sorted.map Sender.text, labels sorted) := by
  have hips : (senders.map Sender.text).map (fun s => (split ':' s).headD []) = senders.map Sender.ip := by
    simp [Function.comp_def, Sender.split_text]
  have hports : (senders.map Sender.text).mapM (fun s => (split ':' s)[1]?) =
      some (senders.map (fun x => Sender.decimal x.port)) := by
    rw [List.mapM_map]
    exact mapM_eq_some (fun x _ => by simp [Sender.split_text])
  have hnums : (senders.map Sender.ip).mapM numip = some (senders.map (fun x => (x.num : Int))) := by
    rw [List.mapM_map]
    exact mapM_eq_some (fun x _ => Sender.numip_ip x)
  have hnames : (senders.map Sender.ip).mapM dnsname = some (senders.map Sender.name) := by
    rw [List.mapM_map]
    exact mapM_eq_some (fun x _ => Sender.dnsname_ip x)
  have hperm := hsort.perm (senders.map (fun x => (x.num : Int)))
  have hle := hsort.sorted (senders.map (fun x => (x.num : Int)))
  unfold sortL0Nodes
  simp only [hips, hports, hnums, hnames, Option.bind_eq_bind, Option.bind_some]
  generalize argsort (senders.map (fun x => (x.num : Int))) = order at hperm hle
  rw [List.length_map] at hperm
  have hlt : ∀ i ∈ order, i < senders.length := fun i hi => List.mem_range.1 (hperm.mem_iff.1 hi)
  refine ⟨order.map (fun i => senders.getD i ⟨0, 0, 0, 0, 0⟩), ?_, ?_, ?_⟩
  · have hmap := hperm.map (fun i => senders.getD i ⟨0, 0, 0, 0, 0⟩)
    rwa [map_getD_range] at hmap
  · refine List.pairwise_map.2 (hle.imp_of_mem (fun {i j} hi hj h => ?_))
    simpa [hlt i hi, hlt j hj] using h
  · rw [mapM_getElem? Sender.text ⟨0, 0, 0, 0, 0⟩ hperm, mapM_getElem? Sender.name ⟨0, 0, 0, 0, 0⟩ hperm]
    have hlabels : order.mapM (fun i => do return (← (senders.map Sender.name)[i]?) ++
        ':' :: (← (senders.map (fun x => Sender.decimal x.port))[i]?)) =
          some ((order.map (fun i => senders.getD i ⟨0, 0, 0, 0, 0⟩)).map Sender.label) := by
      rw [List.map_map]
      refine mapM_eq_some (fun i hi => ?_)
      simp [hlt i hi, Sender.label]
    generalize hsorted : order.map (fun i => senders.getD i ⟨0, 0, 0, 0, 0⟩) = sorted at hlabels
    have hlen : order.length = (sorted.map Sender.name).length := by rw [← hsorted]; simp
    simp only [Option.bind_eq_bind, Option.bind_some, Option.pure_def] at hlabels ⊢
    unfold labels
    by_cases hnd : (sorted.map Sender.name).Nodup
    · rw [if_neg (not_not.2 ((length_dedup_iff.2 hnd).trans hlen.symm)), if_pos hnd]
    · rw [if_pos (fun heq => hnd (length_dedup_iff.1 (heq.trans hlen))), if_neg hnd, hlabels, Option.bind_some]

end Webapp
end FrbL1
