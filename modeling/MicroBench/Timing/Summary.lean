import MicroBench.Timing.Duration
import MicroBench.Timing.Fixed

/-! # Summaries of repeated measurements

  Repeated measurements of one task are summed up by their median, their extremes and the ratio of
  the extremes. Of an even number of samples the upper one of the two middle samples is the median.

  - `Summary.ofSamples` sorts the samples and sums them up; without samples there is no summary.
  - `Duration.text` writes a duration as seconds with six places.
-/

namespace MicroBench

/-- Statistics over several measurements of the same task. -/
structure Summary where
  /-- How many measurements there were. -/
  samples : Nat
  median : Duration
  min : Duration
  max : Duration
  /-- The longest measurement divided by the shortest, or one if the shortest took no time. -/
  spread : Float

/-- The samples in ascending order. -/
def sortedSamples (samples : List Duration) : List Duration := samples.mergeSort Duration.le

/-- The ratio of the longest to the shortest measurement. -/
def spreadOf (min max : Duration) : Float :=
  if min = .zero then 1 else max.toSeconds / min.toSeconds

/-- Sorts samples and sums them up, if there are any. The sorted samples are left to the caller, next
    to the summary. -/
def Summary.ofSamples (samples : List Duration) : Option Summary × List Duration :=
  let sorted := sortedSamples samples
  match sorted.head?, sorted[sorted.length / 2]?, sorted.getLast? with
  | some min, some median, some max =>
    (some ⟨sorted.length, median, min, max, spreadOf min max⟩, sorted)
  | _, _, _ => (none, sorted)

/-- Seconds with six places, the way results are printed. -/
def Duration.text (d : Duration) : String := fixedText 6 d.toSeconds

end MicroBench
