import FrbL1.RpcArguments
import FrbL1.Template
/-!
# ReplaceAll — the stream's number in a directory's name

The loop of `replaceAll` searches from the start of the text again after each replacement: it takes the placeholders one
at a time, the first of them first (`replaceLoop_replaces`).  A stream's number has nothing of `(STREAM)` in it and is
never empty, so that the loop ends, and with what a single pass gives (`replaceAll_eq_fill`).
-/
namespace FrbL1
namespace Requests

open FileUtils
open Posix (Filename)
open Relation (ReflTransGen)
open Template (Names Replaces Separate fill)

section
variable {κ : Type} {N : Names κ Char} {v : κ → List Char}

/-- Each round of the loop is a replacement, and after the last one nothing is left of that placeholder. -/
theorem replaceLoop_replaces {k : κ} : ∀ {fuel : Nat} {s r : List Char},
    replaceLoop (N.text k) (v k) fuel s = some r → ReflTransGen (Replaces N v) s r ∧ ¬ N.text k <:+: r
  | fuel, s, r, h => by
    unfold replaceLoop at h
    cases hf : find (N.text k) s with
    | none =>
      rw [hf] at h
      cases h
      exact ⟨.refl, not_infix_of_find hf⟩
    | some x =>
      obtain ⟨pre, post⟩ := x
      rw [hf] at h
      cases fuel with
      | zero => cases h
      | succ fuel =>
        obtain ⟨hrun, hlast⟩ := replaceLoop_replaces h
        have hstep : Replaces N v s (pre ++ v k ++ post) := by
          rw [find_eq hf, List.append_assoc, List.append_assoc]
          exact .mk pre k post
        exact ⟨.head hstep hrun, hlast⟩

end

/-- **The loop ends with what a single pass gives.** -/
theorem replaceAll_eq_fill {N : Names Unit Char} {v : Unit → List Char} (h : Separate N v) (s : List Char) :
    replaceAll s (N.text ()) (v ()) = some (fill N v s) := by
  have hends := replaceAll_isSome (Template.opening_mem_text N ()) (h.opening_not_mem ()) s
  obtain ⟨r, hr⟩ := Option.isSome_iff_exists.1 hends
  obtain ⟨hrun, hlast⟩ := replaceLoop_replaces hr
  rw [hr, Template.eq_fill h hrun (fun _ => hlast)]

-- With nothing put in its place, a placeholder makes a new one of the text around it.
example : replaceAll "(STR(STREAM)EAM)".toList "(STREAM)".toList [] = some [] := by decide

/-! ## The stream's number -/

theorem stream_begins : "(STREAM)".toList = '(' :: "STREAM)".toList := by decide

def streamName : Names Unit Char := .one "(STREAM)".toList '(' ⟨"STREAM)".toList, stream_begins⟩

theorem separate_stream (streamId : Int) : Separate streamName (fun _ => setw 1 streamId) where
  once   := fun _ t ht => by
    obtain ⟨-, rfl⟩ := List.cons.inj (stream_begins.symm.trans ht)
    decide
  ne_nil := fun _ => List.append_ne_nil_of_right_ne_nil _ (toString_ne_nil streamId)
  fresh  := fun _ c hc _ hname => by
    have hall : "(STREAM)".toList.all (fun c => !c.isDigit && c != '-') = true := by decide
    obtain ⟨hdigit, hminus⟩ : c.isDigit = false ∧ c ≠ '-' := by simpa using List.all_eq_true.1 hall c hname
    exact not_mem_setw hdigit hminus 1 streamId hc

/-- The stream's number in the place of each `(STREAM)`, in a single pass from the left. -/
def fillStream (streamId : Int) (s : Filename) : Filename := fill streamName (fun _ => setw 1 streamId) s

theorem replaceAll_stream (s : Filename) (streamId : Int) :
    replaceAll s "(STREAM)".toList (setw 1 streamId) = some (fillStream streamId s) :=
  replaceAll_eq_fill (separate_stream streamId) s

theorem replaceStream_eq (s : Filename) (streamId : Int) : replaceStream s streamId = fillStream streamId s := by
  unfold replaceStream
  simp only [replaceAll_stream, Option.get_some]

theorem fillStream_plain {s : Filename} (h : ¬ "(STREAM)".toList <:+: s) (streamId : Int) : fillStream streamId s = s :=
  Template.fill_plain streamName _ (fun _ => h)

theorem not_infix_fillStream (streamId : Int) (s : Filename) : ¬ "(STREAM)".toList <:+: fillStream streamId s :=
  Template.plain_fill (separate_stream streamId) s ()

theorem fillStream_name (streamId : Int) (f g : Filename) :
    fillStream streamId (f ++ ("(STREAM)".toList ++ g)) = fillStream streamId f ++ (setw 1 streamId ++ fillStream streamId g) :=
  (separate_stream streamId).fill_append_text f () g

theorem fillStream_slash (streamId : Int) (f g : Filename) :
    fillStream streamId (f ++ '/' :: g) = fillStream streamId f ++ '/' :: fillStream streamId g := by
  have hslash : '/' ∉ "(STREAM)".toList := by decide
  exact Template.fill_append_cons streamName _ (fun _ => hslash) f g

end Requests
end FrbL1
