import FrbL1.L0Nodes
import FrbL1.Tally
import Mathlib.Algebra.Field.Rat
import Mathlib.Algebra.Order.Ring.Rat
import Mathlib.Data.List.Sort
import Mathlib.Data.Set.List
/-!
# PacketMatrix — packet rates by receiver and sender

The packet matrix of the web application.  Each L1 node replies with its senders and their packet counts.  The senders
may be grouped: the interfaces of an L0 node are aliases of each other.  The columns of the matrix are all senders, in
order; a row has the rates of one node, and all of them (`packet_matrix_faithful`).
-/
namespace FrbL1
namespace Webapp

open Fallible (foldlM_eq_some mapM_forall₂)
open Tally
open Template (Names fill)

/-! ## The application -/

/-- A reply to `get_packet_rate`. -/
structure PacketRate where
  period  : ℚ
  packets : List (List Char × ℚ)

def PacketRate.keys (p : PacketRate) : List (List Char) := p.packets.map (·.1)

/-- L0 nodes have aliases `10.[6789].x.y == 10.1.x.y`. -/
def groupSender (s : List Char) : Option (List Char) :=
  match split ':' s with
  | [ip, port] => do
    let abcd ← (split '.' ip).mapM int
    let abcd := if (← abcd[1]?) ∈ [6, 7, 8, 9] then abcd.set 1 1 else abcd
    return join '.' (abcd.map FileUtils.toString) ++ ':' :: port
  | _ => none

def allKeys (rates : List (Option PacketRate)) : List (List Char) :=
  rates.flatMap (fun p => (p.map PacketRate.keys).getD [])

def senderMap (rates : List (Option PacketRate)) : Option (List (List Char × List Char)) :=
  (allKeys rates).foldlM (fun m s => do return set m s (← groupSender s)) []

def PacketRate.mapped (senderMap : List (List Char × List Char)) (p : PacketRate) : Option PacketRate := do
  let mapped ← p.packets.foldlM (fun mapped x => do return addItem mapped (← get senderMap x.1, x.2)) []
  return { p with packets := mapped }

def groupReply (senderMap : List (List Char × List Char)) : Option PacketRate → Option (Option PacketRate)
  | none   => some none
  | some p => (p.mapped senderMap).map some

def groupNodes (rates : List (Option PacketRate)) : Option (List (Option PacketRate)) := do
  rates.mapM (groupReply (← senderMap rates))

def PacketRate.rates (p : PacketRate) : List (List Char × ℚ) :=
  p.packets.map (fun x => (x.1, if p.period > 0 then x.2 / p.period else 0))

structure Env where
  argsort   : List Int → List Nat
  listOfSet : List (List Char) → List (List Char)      -- the elements of a set, in the order of `list`

structure Env.Documented (env : Env) : Prop where
  argsort   : IsArgsort env.argsort
  listOfSet : ∀ l, (env.listOfSet l).Perm l

def group (groupL0 : Option (List Char)) (rates : List (Option PacketRate)) : Option (List (Option PacketRate)) :=
  if groupL0 = some "node".toList then groupNodes rates else some rates

def senderSet (rates : List (Option PacketRate)) : List (List Char) :=
  rates.foldl (fun senders p => senders ∪ (p.map PacketRate.keys).getD []) []

/-- `get_packet_matrix`; `none` is an exception. -/
def getPacketMatrix (env : Env) (groupL0 : Option (List Char)) (rates : List (Option PacketRate)) :
    Option (List (List Char) × List (List Char) × List (List (List Char × ℚ))) := do
  let rates ← group groupL0 rates
  let packetrates := rates.map (fun p => (p.map PacketRate.rates).getD [])
  let (senders, senderNames) ← sortL0Nodes env.argsort (env.listOfSet (senderSet rates))
  return (senders, senderNames, packetrates)

structure PacketMatrix where
  l0      : List (List Char)
  l0Ip    : List (List Char)
  l1      : List (List Char)
  packets : List (List ℚ)

def scheme : Names Unit Char where
  all      := [()]
  text     := fun _ => "tcp://".toList
  opening  := 't'
  complete := fun _ => .head _
  begins   := fun _ => ⟨"cp://".toList, rfl⟩
  apart    := fun _ _ _ _ => rfl

def row (senders : List (List Char)) (p : List (List Char × ℚ)) : List ℚ := senders.map (fun s => (get p s).getD 0)

def packetMatrixJson (env : Env) (nodes : List (List Char)) (groupL0 : Option (List Char))
    (rates : List (Option PacketRate)) : Option PacketMatrix := do
  let (senders, senderNames, packets) ← getPacketMatrix env groupL0 rates
  return { l0 := senderNames, l0Ip := senders, l1 := nodes.map (fill scheme (fun _ => [])),
           packets := packets.map (row senders) }

/-! ## What it is for -/

structure Reply where
  period  : ℚ
  packets : List (Sender × ℚ)
  nodup   : (packets.map (·.1)).Nodup
  pos     : 0 < period

def Reply.packetRate (r : Reply) : PacketRate := ⟨r.period, r.packets.map (fun x => (x.1.text, x.2))⟩

/-- The interface of an L0 node that its others are aliases of. -/
def Sender.alias (x : Sender) : Sender := if x.b ∈ [6, 7, 8, 9] then { x with b := 1 } else x

def grouping (groupL0 : Option (List Char)) : Sender → Sender :=
  if groupL0 = some "node".toList then Sender.alias else id

def Reply.items (g : Sender → Sender) (r : Reply) : List (Sender × ℚ) := r.packets.map (fun x => (g x.1, x.2))

def Reply.rate (g : Sender → Sender) (r : Reply) (y : Sender) : ℚ := amount (r.items g) y / r.period

def Reply.totalRate (r : Reply) : ℚ := total r.packets / r.period

structure IsMatrix (groupL0 : Option (List Char)) (nodes : List (List Char)) (replies : List (Option Reply))
    (senders : List Sender) (json : PacketMatrix) : Prop where
  nodup   : senders.Nodup
  mem     : ∀ y, y ∈ senders ↔ ∃ r, some r ∈ replies ∧ ∃ x ∈ r.packets, grouping groupL0 x.1 = y
  sorted  : senders.Pairwise (fun x y => x.num ≤ y.num)
  l0Ip    : json.l0Ip = senders.map Sender.text
  l0      : json.l0 = labels senders
  unique  : json.l0Ip.Nodup ∧ json.l0.Nodup
  l1      : json.l1 = nodes.map (fill scheme (fun _ => []))
  rows    : List.Forall₂ (fun reply row =>
    row = senders.map (fun y => (reply.map (Reply.rate (grouping groupL0) · y)).getD 0) ∧
      row.sum = (reply.map Reply.totalRate).getD 0) replies json.packets

/-- **The columns have all of a reply**, each sender once. -/
theorem sum_rate (g : Sender → Sender) (r : Reply) {senders : List Sender} (hnd : senders.Nodup)
    (h : ∀ x ∈ r.packets, g x.1 ∈ senders) : (senders.map (r.rate g)).sum = r.totalRate := by
  have hrate : senders.map (r.rate g) =
      senders.map (amount ((r.items g).map (fun x => (x.1, AddMonoidHom.mulRight r.period⁻¹ x.2)))) := by
    apply List.map_congr_left
    intro y _
    rw [amount_map_value]
    exact div_eq_mul_inv _ _
  have htotal : total (r.items g) = total r.packets := by
    unfold total Reply.items
    rw [List.map_map]
    rfl
  rw [hrate, sum_amount hnd, total_map_value, htotal]
  · exact (div_eq_mul_inv _ _).symm
  · intro x hx
    obtain ⟨x', hx', rfl⟩ := List.mem_map.1 hx
    obtain ⟨x'', hx'', rfl⟩ := List.mem_map.1 hx'
    exact h x'' hx''

/-! ## Grouping -/

theorem toString_natCast (n : Nat) : FileUtils.toString (n : Int) = Sender.decimal n := by
  unfold FileUtils.toString
  rw [if_neg (by omega)]
  rfl

theorem groupSender_text (x : Sender) : groupSender x.text = some x.alias.text := by
  have hjoin : ∀ (a b c d : Nat), join '.' ([(a : Int), b, c, d].map FileUtils.toString) ++
      ':' :: Sender.decimal x.port = (Sender.mk a b c d x.port).text := fun a b c d => by
    simp only [List.map_cons, List.map_nil, toString_natCast]
    simp [Sender.text, Sender.ip, join, List.intercalate]
  unfold groupSender Sender.alias
  rw [x.split_text]
  simp only [x.ints_ip, Option.bind_eq_bind, Option.bind_some, List.getElem?_cons_succ, List.getElem?_cons_zero,
    Option.pure_def]
  have hmem : (x.b : Int) ∈ [(6 : Int), 7, 8, 9] ↔ x.b ∈ [6, 7, 8, 9] := by
    simp only [List.mem_cons, List.not_mem_nil, or_false]
    omega
  by_cases hb : x.b ∈ [6, 7, 8, 9]
  · rw [if_pos (hmem.2 hb), if_pos hb]
    exact congrArg some (hjoin x.a 1 x.c x.d)
  · rw [if_neg (mt hmem.1 hb), if_neg hb]
    exact congrArg some (hjoin x.a x.b x.c x.d)

/-- A reply of the application is that of a node, with the senders grouped. -/
def Shows (g : Sender → Sender) (r : Reply) (p : PacketRate) : Prop :=
  p.period = r.period ∧ p.keys.Nodup ∧ (∀ s, s ∈ p.keys ↔ ∃ x ∈ r.packets, (g x.1).text = s) ∧
    ∀ y : Sender, amount p.packets y.text = amount (r.items g) y

theorem shows_packetRate (r : Reply) : Shows id r r.packetRate := by
  have hkeys : r.packetRate.keys = (r.packets.map (·.1)).map Sender.text := by
    unfold PacketRate.keys Reply.packetRate
    rw [List.map_map, List.map_map]
    rfl
  refine ⟨rfl, ?_, fun s => ?_, fun y => ?_⟩
  · rw [hkeys]
    exact r.nodup.map Sender.text_injective
  · rw [hkeys, List.map_map, List.mem_map]
    rfl
  · have hitems : r.items id = r.packets := List.map_id' _
    rw [hitems]
    exact amount_map_key Sender.text_injective r.packets y

theorem mapped_shows {m : List (List Char × List Char)} {r : Reply}
    (hm : ∀ x ∈ r.packets, get m x.1.text = some x.1.alias.text) :
    ∃ p, r.packetRate.mapped m = some p ∧ Shows Sender.alias r p := by
  have hfold : r.packetRate.packets.foldlM (fun mapped x => do return addItem mapped (← get m x.1, x.2)) [] =
      some (((r.items Sender.alias).map (fun x => (x.1.text, x.2))).foldl addItem []) := by
    unfold Reply.packetRate Reply.items
    rw [List.foldlM_map, List.map_map, List.foldl_map]
    refine foldlM_eq_some (fun x hx d => ?_) []
    rw [hm x hx]
    rfl
  refine ⟨⟨r.period, _⟩, by rw [PacketRate.mapped, hfold]; rfl, rfl, nodup_addItems (d := []) List.nodup_nil, fun s => ?_,
    fun y => ?_⟩
  · rw [PacketRate.keys, mem_keys_addItems, Reply.items]
    simp [eq_comm]
  · have hget := get_addItems ((r.items Sender.alias).map (fun x => (x.1.text, x.2))) [] y.text
    rw [getD_get (nodup_addItems (d := []) List.nodup_nil), amount_map_key Sender.text_injective] at hget
    simpa using hget

def ShowsReply (g : Sender → Sender) : Option Reply → Option PacketRate → Prop
  | none,   none   => True
  | some r, some p => Shows g r p
  | _,      _      => False

theorem showsReply_packetRate (replies : List (Option Reply)) :
    List.Forall₂ (ShowsReply id) replies (replies.map (Option.map Reply.packetRate)) := by
  rw [List.forall₂_map_right_iff, List.forall₂_same]
  intro reply _
  cases reply with
  | none => trivial
  | some r => exact shows_packetRate r

theorem mem_allKeys {g : Sender → Sender} {replies : List (Option Reply)} {rates : List (Option PacketRate)}
    (h : List.Forall₂ (ShowsReply g) replies rates) (s : List Char) :
    s ∈ allKeys rates ↔ ∃ r, some r ∈ replies ∧ ∃ x ∈ r.packets, (g x.1).text = s := by
  induction h with
  | nil => simp [allKeys]
  | @cons reply p replies rates hshows _ ih =>
    unfold allKeys at ih ⊢
    rw [List.flatMap_cons, List.mem_append, ih]
    cases reply with
    | none =>
      cases p with
      | none => simp
      | some p => cases hshows
    | some r =>
      cases p with
      | none => cases hshows
      | some p => simp [hshows.2.2.1 s]

theorem senderMap_text (replies : List (Option Reply)) :
    ∃ m, senderMap (replies.map (Option.map Reply.packetRate)) = some m ∧
      ∀ r, some r ∈ replies → ∀ x ∈ r.packets, get m x.1.text = some x.1.alias.text := by
  have hkeys := mem_allKeys (showsReply_packetRate replies)
  refine ⟨(allKeys (replies.map (Option.map Reply.packetRate))).foldl (fun m s => set m s ((groupSender s).getD [])) [],
    ?_, fun r hr x hx => ?_⟩
  · refine foldlM_eq_some (fun s hs m => ?_) []
    obtain ⟨r, -, x, -, rfl⟩ := (hkeys s).1 hs
    rw [id, groupSender_text]
    rfl
  · have hmem : x.1.text ∈ allKeys (replies.map (Option.map Reply.packetRate)) := (hkeys _).2 ⟨r, hr, x, hx, rfl⟩
    rw [get_setAll (fun s => (groupSender s).getD []), if_pos hmem, groupSender_text]
    rfl

/-- **With the senders grouped** the replies are those of the nodes still. -/
theorem groupNodes_shows (replies : List (Option Reply)) :
    ∃ rates, groupNodes (replies.map (Option.map Reply.packetRate)) = some rates ∧
      List.Forall₂ (ShowsReply Sender.alias) replies rates := by
  obtain ⟨m, hm, htext⟩ := senderMap_text replies
  have hgroup : ∀ reply ∈ replies, ∃ p, groupReply m (reply.map Reply.packetRate) = some p ∧
      ShowsReply Sender.alias reply p := fun reply hreply => by
    cases reply with
    | none => exact ⟨none, rfl, trivial⟩
    | some r =>
      obtain ⟨p, hp, hshows⟩ := mapped_shows (htext r hreply)
      refine ⟨some p, ?_, hshows⟩
      rw [Option.map_some, groupReply, hp, Option.map_some]
  obtain ⟨rates, hrates, hshows⟩ := mapM_forall₂ (m := Option) hgroup
  refine ⟨rates, ?_, hshows⟩
  rw [groupNodes, hm, Option.bind_eq_bind, Option.bind_some, List.mapM_map]
  exact hrates

/-! ## The matrix -/

theorem mem_foldl_union (rates : List (Option PacketRate)) : ∀ (senders : List (List Char)) (s : List Char),
    s ∈ rates.foldl (fun senders p => senders ∪ (p.map PacketRate.keys).getD []) senders ↔
      s ∈ senders ∨ s ∈ allKeys rates := by
  induction rates with
  | nil => simp [allKeys]
  | cons p rates ih =>
    intro senders s
    rw [List.foldl_cons, ih, List.mem_union_iff]
    unfold allKeys
    rw [List.flatMap_cons, List.mem_append, or_assoc]

theorem nodup_foldl_union {g : Sender → Sender} {replies : List (Option Reply)} {rates : List (Option PacketRate)}
    (h : List.Forall₂ (ShowsReply g) replies rates) : ∀ {senders : List (List Char)}, senders.Nodup →
      (rates.foldl (fun senders p => senders ∪ (p.map PacketRate.keys).getD []) senders).Nodup := by
  induction h with
  | nil => exact fun h => h
  | @cons reply p replies rates hshows _ ih =>
    intro senders _
    rw [List.foldl_cons]
    apply ih
    apply List.Nodup.union
    cases p with
    | none => exact List.nodup_nil
    | some p =>
      cases reply with
      | none => cases hshows
      | some r => exact hshows.2.1

theorem get_rates {g : Sender → Sender} {r : Reply} {p : PacketRate} (h : Shows g r p) (y : Sender) :
    (get p.rates y.text).getD 0 = r.rate g y := by
  obtain ⟨hperiod, hnd, -, hamount⟩ := h
  have hrates : p.rates = p.packets.map (fun x => (x.1, AddMonoidHom.mulRight r.period⁻¹ x.2)) := by
    apply List.map_congr_left
    intro x _
    rw [hperiod, if_pos r.pos]
    exact congrArg (Prod.mk x.1) (div_eq_mul_inv _ _)
  have hkeys : (p.rates.map (·.1)).Nodup := by
    unfold PacketRate.rates
    rw [List.map_map]
    exact hnd
  rw [getD_get hkeys, hrates, amount_map_value, hamount]
  exact (div_eq_mul_inv _ _).symm

theorem shows_grouped (groupL0 : Option (List Char)) (replies : List (Option Reply)) :
    ∃ rates, group groupL0 (replies.map (Option.map Reply.packetRate)) = some rates ∧
      List.Forall₂ (ShowsReply (grouping groupL0)) replies rates := by
  unfold group grouping
  split
  · exact groupNodes_shows replies
  · exact ⟨_, rfl, showsReply_packetRate replies⟩

theorem row_shows {g : Sender → Sender} {reply : Option Reply} {p : Option PacketRate} (h : ShowsReply g reply p)
    (senders : List Sender) : row (senders.map Sender.text) ((p.map PacketRate.rates).getD []) =
      senders.map (fun y => (reply.map (Reply.rate g · y)).getD 0) := by
  unfold row
  rw [List.map_map]
  cases reply with
  | none =>
    cases p with
    | none => rfl
    | some p => cases h
  | some r =>
    cases p with
    | none => cases h
    | some p => exact List.map_congr_left (fun y _ => get_rates h y)

theorem sum_row {g : Sender → Sender} {reply : Option Reply} {senders : List Sender} (hnd : senders.Nodup)
    (hmem : ∀ r, reply = some r → ∀ x ∈ r.packets, g x.1 ∈ senders) :
    (senders.map (fun y => (reply.map (Reply.rate g · y)).getD 0)).sum = (reply.map Reply.totalRate).getD 0 := by
  cases reply with
  | none => exact List.sum_map_zero
  | some r => exact sum_rate g r hnd (hmem r rfl)

theorem rows_shows {g : Sender → Sender} {replies : List (Option Reply)} {rates : List (Option PacketRate)}
    (h : List.Forall₂ (ShowsReply g) replies rates) {senders : List Sender} (hnd : senders.Nodup)
    (hmem : ∀ r, some r ∈ replies → ∀ x ∈ r.packets, g x.1 ∈ senders) :
    List.Forall₂ (fun reply row => row = senders.map (fun y => (reply.map (Reply.rate g · y)).getD 0) ∧
        row.sum = (reply.map Reply.totalRate).getD 0)
      replies (rates.map (fun p => row (senders.map Sender.text) ((p.map PacketRate.rates).getD []))) := by
  induction h with
  | nil => exact .nil
  | @cons reply p replies rates hshows _ ih =>
    refine .cons ⟨row_shows hshows senders, ?_⟩ (ih (fun r hr => hmem r (.tail _ hr)))
    show (row _ _).sum = _
    rw [row_shows hshows]
    exact sum_row hnd (fun r hr => hmem r (hr ▸ .head _))

/-- **The packet matrix**: for all replies, with the senders grouped or not, the columns are the senders, each once and
in order, and the rows are the rates of the nodes, of which nothing is lost. -/
theorem packet_matrix_faithful {env : Env} (henv : env.Documented) (nodes : List (List Char))
    (groupL0 : Option (List Char)) (replies : List (Option Reply)) :
    ∃ json senders, packetMatrixJson env nodes groupL0 (replies.map (Option.map Reply.packetRate)) = some json ∧
      IsMatrix groupL0 nodes replies senders json := by
  obtain ⟨rates, hrates, hshows⟩ := shows_grouped groupL0 replies
  have hset := henv.listOfSet (senderSet rates)
  have hkeys : ∀ s, s ∈ env.listOfSet (senderSet rates) ↔
      ∃ r, some r ∈ replies ∧ ∃ x ∈ r.packets, (grouping groupL0 x.1).text = s := fun s => by
    rw [hset.mem_iff, senderSet, mem_foldl_union, mem_allKeys hshows]
    exact or_iff_right List.not_mem_nil
  obtain ⟨unsorted, hunsorted⟩ : env.listOfSet (senderSet rates) ∈ Set.range (List.map Sender.text) := by
    rw [Set.range_list_map]
    intro s hs
    obtain ⟨r, -, x, -, hx⟩ := (hkeys s).1 hs
    exact ⟨_, hx⟩
  obtain ⟨senders, hperm, hsorted, hsort⟩ := sortL0Nodes_text henv.argsort unsorted
  have hnd : senders.Nodup := by
    rw [hperm.nodup_iff]
    apply List.Nodup.of_map Sender.text
    rw [hunsorted, hset.nodup_iff]
    exact nodup_foldl_union hshows List.nodup_nil
  have hmem : ∀ y, y ∈ senders ↔ ∃ r, some r ∈ replies ∧ ∃ x ∈ r.packets, grouping groupL0 x.1 = y := fun y => by
    rw [hperm.mem_iff, ← List.mem_map_of_injective Sender.text_injective, hunsorted, hkeys]
    simp only [Sender.text_injective.eq_iff]
  have hrows := rows_shows hshows hnd (fun r hr x hx => (hmem _).2 ⟨r, hr, x, hx, rfl⟩)
  refine ⟨⟨labels senders, senders.map Sender.text, nodes.map (fill scheme (fun _ => [])), _⟩, senders, ?_, hnd, hmem,
    hsorted, rfl, rfl, ⟨hnd.map Sender.text_injective, nodup_labels hnd⟩, rfl, hrows⟩
  rw [packetMatrixJson, getPacketMatrix, hrates]
  simp only [Option.bind_eq_bind, Option.bind_some, ← hunsorted, hsort, Option.pure_def, List.map_map]
  rfl

/-! ## Two nodes -/

def sortingEnv : Env where
  argsort   := fun l => (List.range l.length).insertionSort (fun i j => l.getD i 0 ≤ l.getD j 0)
  listOfSet := id

theorem sortingEnv_documented : sortingEnv.Documented where
  argsort   :=
    { perm   := fun l => List.perm_insertionSort _ _
      sorted := fun l => by
        have htotal : Std.Total (fun i j => l.getD i 0 ≤ l.getD j 0) := ⟨fun _ _ => le_total _ _⟩
        have htrans : IsTrans Nat (fun i j => l.getD i 0 ≤ l.getD j 0) := ⟨fun _ _ _ => le_trans⟩
        exact List.pairwise_insertionSort _ _ }
  listOfSet := fun l => List.Perm.refl l

def aliasReply : Reply where
  period  := 10
  packets := [(⟨10, 6, 7, 18, 1313⟩, 30), (⟨192, 168, 1, 2, 1313⟩, 5), (⟨10, 1, 7, 18, 1313⟩, 20)]
  nodup   := by decide
  pos     := by decide +kernel

/-- With the interfaces grouped: one column has both. -/
example : ((packetMatrixJson sortingEnv ["tcp://10.0.0.1:5555".toList, "tcp://10.0.0.2:5555".toList] (some "node".toList)
    [some aliasReply.packetRate, none]).map (·.packets)) = some [[5, 1 / 2], [0, 0]] := by decide +kernel

theorem packet_matrix_faithful_alias :
    ∃ json senders, packetMatrixJson sortingEnv ["tcp://10.0.0.1:5555".toList, "tcp://10.0.0.2:5555".toList]
      (some "node".toList) ([some aliasReply, none].map (Option.map Reply.packetRate)) = some json ∧
      IsMatrix (some "node".toList) ["tcp://10.0.0.1:5555".toList, "tcp://10.0.0.2:5555".toList] [some aliasReply, none]
        senders json :=
  packet_matrix_faithful sortingEnv_documented _ _ _

end Webapp
end FrbL1
