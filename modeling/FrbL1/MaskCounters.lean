import FrbL1.L1Server
/-!
# MaskCounters — the mask counters of an RFI chain

`_init_mask_counters`, which each dedispersion thread calls for its own copy of the RFI chain.  The chain is the list of
the objects that `visit_pipeline` shows, in its order.
-/
namespace FrbL1
namespace Startup

open Config (L1Config Stop)
open FileUtils (find)

structure PipelineObject where
  className   : List Char
  maskCounter : Option (List Char)

/-- What the lambda `find_mask_counters` has found, with the places in the chain. -/
structure Found where
  maskCounters              : List (Nat × List Char)
  clippersAfterMaskCounters : Bool

def findMaskCounters (f : Found) (x : PipelineObject × Nat) : Found :=
  if (find "clipper".toList x.1.className).isSome then
    if f.maskCounters.length > 0 then { f with clippersAfterMaskCounters := true } else f
  else match x.1.maskCounter with
    | some «where» => ⟨f.maskCounters ++ [(x.2, «where»)], false⟩
    | none         => f

def visitPipeline (chain : List PipelineObject) : Found := chain.zipIdx.foldl findMaskCounters ⟨[], false⟩

structure RuntimeAttrs where
  ringbufNhistory : Int
  chimeBeamId     : Int
  chimeStream     : Option Nat

/-- A mask counter, with the attributes that are set; then it is put into the map. -/
structure Counter where
  place   : Nat
  «where» : List Char
  attrs   : RuntimeAttrs

/-- `_init_mask_counters`, for a thread of stream `sp`. -/
def initMaskCounters (c : L1Config) (sp : Nat) (chain : List PipelineObject) (beamId : Int) :
    Except Stop (List Counter) := do
  let f := visitPipeline chain
  if c.nrfifreq > 0 then
    if f.maskCounters.length = 0 then
      throw (.threw "ch-frb-l1: RFI masks requested, but no mask_counters in the RFI config JSON file".toList)
    if f.clippersAfterMaskCounters then
      throw (.threw ("ch-frb-l1: RFI masks requested, and clippers occur after the last mask_counter in the RFI config " ++
        "JSON file").toList)
  return f.maskCounters.mapIdx (fun i x => ⟨x.1, x.2, c.rfiMaskMeasHistory, beamId,
    if c.nrfifreq > 0 ∧ i + 1 = f.maskCounters.length then some sp else none⟩)

end Startup
end FrbL1
