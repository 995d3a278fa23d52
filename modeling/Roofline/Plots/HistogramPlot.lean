import Roofline.Library.LinkedSets
import Roofline.Library.Programs
import Roofline.Plots.AxisRanges
import Roofline.Plots.Histogram

/-!
# Plots of histograms

A plot has a histogram for each series of values.  All series are counted in the same bins, between
the bounds that are set on the plot or the smallest and the largest value of all series.

Main results:

- Theorem {lit}`histograms_ofAdditions`: the histogram of a series has the values of the series.
- Theorem {lit}`data_counts`: without bounds on the plot each value of each series is counted.
-/

namespace Roofline
namespace Plots

open Integers LinkedSets Programs

/-- The histograms in the order in which their series were added, and all values. -/
structure HistogramPlot where
  histograms : List (String × Histogram ℚ)
  totalStats : List ℚ
  binCount : Signed 32
  xRange : DefinedRange

namespace HistogramPlot

/-- {lit}`setBinCount` and {lit}`setXRange` on a new plot; without them there are 100 bins and no
bounds. -/
def new (binCount : Signed 32) (xRange : DefinedRange) : HistogramPlot where
  histograms := []
  totalStats := []
  binCount := binCount
  xRange := xRange

/-- {lit}`addValue` -/
def addValue (plot : HistogramPlot) (series : String) (v : ℚ) : HistogramPlot :=
  { plot with
    histograms := update plot.histograms ⟨[]⟩ (·.apply v) series
    totalStats := plot.totalStats ++ [v] }

/-- The bounds that are set on the plot go before the ones of the values.  Without values the plot
has no histograms, and the bounds are not used. -/
def getXRange (plot : HistogramPlot) : Option Range :=
  match plot.totalStats.min?, plot.totalStats.max? with
  | some low, some high =>
      some (Range.between (plot.xRange.minimum.getD low) (plot.xRange.maximum.getD high))
  | _, _ => none

/-- The lines of the data file for one histogram. -/
def seriesData (binCount : Signed 32) (range : Range) (histogram : Histogram ℚ) :
    Except Throwable (List (ℚ × Nat)) := do
  let counts ← histogram.getCounts binCount range.minimum range.maximum
  let binCenters ← Histogram.getBinCenters binCount range.minimum range.maximum
  return binCenters.zip counts

/-- The data file that {lit}`plot` writes. -/
def data (plot : HistogramPlot) : Except Throwable (List (List (ℚ × Nat))) :=
  match plot.getXRange with
  | none => .ok []
  | some range => plot.histograms.mapM fun entry => seriesData plot.binCount range entry.2

/-- The plot after these calls of {lit}`addValue`. -/
def ofAdditions (binCount : Signed 32) (xRange : DefinedRange) (additions : List (String × ℚ)) :
    HistogramPlot :=
  additions.foldl (fun plot addition => plot.addValue addition.1 addition.2) (new binCount xRange)

/-! ## The values of the series -/

section Additions

variable (binCount : Signed 32) (xRange : DefinedRange) (additions : List (String × ℚ))

/-- A histogram for each group of values. -/
def ofGroups (groups : List (String × List ℚ)) : List (String × Histogram ℚ) :=
  groups.map fun entry => (entry.1, ⟨entry.2⟩)

/-- Adding a value to the histograms adds it to its group. -/
theorem update_ofGroups (groups : List (String × List ℚ)) (series : String) (v : ℚ) :
    update (ofGroups groups) ⟨[]⟩ (·.apply v) series =
      ofGroups (update groups [] (· ++ [v]) series) := by
  have hkeys : (ofGroups groups).map Prod.fst = groups.map Prod.fst := by
    rw [ofGroups, List.map_map]
    rfl
  unfold update
  rw [hkeys]
  split
  · rw [ofGroups, ofGroups, List.map_map, List.map_map]
    apply List.map_congr_left
    intro entry _
    simp only [Function.comp_apply]
    split <;> rfl
  · rw [ofGroups, ofGroups, List.map_append]
    rfl

/-- The histogram of a series has the values of the series, and the plot has all values. -/
theorem ofAdditions_eq :
    ofAdditions binCount xRange additions =
      ⟨ofGroups (group additions), additions.map Prod.snd, binCount, xRange⟩ := by
  induction additions using List.reverseRecOn with
  | nil => rfl
  | append_singleton additions addition ih =>
      have hgroup : group (additions ++ [addition]) =
          update (group additions) [] (· ++ [addition.2]) addition.1 := by
        rw [group, List.foldl_append]
        rfl
      rw [ofAdditions, List.foldl_append]
      change (ofAdditions binCount xRange additions).addValue addition.1 addition.2 = _
      rw [ih, hgroup, addValue, ← update_ofGroups, List.map_append]
      rfl

/-- The histograms hold the values of their series, in order. -/
theorem histograms_ofAdditions :
    (ofAdditions binCount xRange additions).histograms =
      (ofAdds (additions.map Prod.fst)).map fun series =>
        (series, ⟨valuesOf additions series⟩) := by
  rw [ofAdditions_eq, ofGroups, group_eq, List.map_map]
  rfl

end Additions

/-! ## The data file -/

/-- Without bounds on the plot its range encloses all values. -/
theorem getXRange_bounds {plot : HistogramPlot} (hrange : plot.xRange = ⟨none, none⟩) {value : ℚ}
    (hvalue : value ∈ plot.totalStats) :
    ∃ range, plot.getXRange = some range ∧
      ∀ v ∈ plot.totalStats, range.minimum ≤ v ∧ v ≤ range.maximum := by
  obtain ⟨low, hlow⟩ := Option.isSome_iff_exists.mp (List.isSome_min?_of_mem hvalue)
  obtain ⟨high, hhigh⟩ := Option.isSome_iff_exists.mp (List.isSome_max?_of_mem hvalue)
  have hsmallest := (List.min?_eq_some_iff.mp hlow).2
  have hlargest := (List.max?_eq_some_iff.mp hhigh).2
  have hordered : low ≤ high := (hsmallest value hvalue).trans (hlargest value hvalue)
  refine ⟨⟨low, high, hordered⟩, ?_, fun v hv => ⟨hsmallest v hv, hlargest v hv⟩⟩
  simp only [getXRange, hlow, hhigh, hrange, Option.getD_none, between_of_le hordered]

/-- All values of a series within the range are counted. -/
theorem seriesData_counts {binCount : Signed 32} (hcount : 1 ≤ binCount.val) {range : Range}
    {histogram : Histogram ℚ}
    (hvalues : ∀ v ∈ histogram.values, range.minimum ≤ v ∧ v ≤ range.maximum) :
    ∃ block, seriesData binCount range histogram = .ok block ∧
      (block.length : Int) = binCount.val ∧
        (block.map Prod.snd).sum = histogram.values.length := by
  obtain ⟨counts, hcounts, hlength, hsum⟩ := Histogram.sum_getCounts hcount hvalues
  obtain ⟨n, hn⟩ := Int.eq_ofNat_of_zero_le (show 0 ≤ binCount.val by omega)
  have hcenters := Histogram.getBinCenters_eq hn range.minimum range.maximum
  have hsame : (Histogram.centers n range.minimum range.maximum).length = counts.length := by
    rw [Histogram.length_centers]
    omega
  refine ⟨(Histogram.centers n range.minimum range.maximum).zip counts, ?_, ?_, ?_⟩
  · rw [seriesData, hcounts, hcenters]
    rfl
  · rw [List.length_zip, hsame, min_self, hlength]
  · rw [List.map_snd_zip hsame.ge, hsum]

/-- Without bounds on the plot each value of each series is counted. -/
theorem data_counts {binCount : Signed 32} (hcount : 1 ≤ binCount.val)
    (additions : List (String × ℚ)) :
    ∃ blocks, (ofAdditions binCount ⟨none, none⟩ additions).data = .ok blocks ∧
      List.Forall₂ (fun series block => (block.length : Int) = binCount.val ∧
          (block.map Prod.snd).sum = (valuesOf additions series).length)
        (ofAdds (additions.map Prod.fst)) blocks := by
  cases additions with
  | nil => exact ⟨[], rfl, .nil⟩
  | cons addition others =>
      generalize hall : addition :: others = additions
      have hplot := ofAdditions_eq binCount ⟨none, none⟩ additions
      have hfirst : addition.2 ∈ (ofAdditions binCount ⟨none, none⟩ additions).totalStats := by
        rw [hplot, ← hall]
        exact List.mem_cons_self
      have hunset : (ofAdditions binCount ⟨none, none⟩ additions).xRange = ⟨none, none⟩ := by
        rw [hplot]
      obtain ⟨range, hrange, hbounds⟩ := getXRange_bounds hunset hfirst
      have hvalues : ∀ series, ∀ v ∈ valuesOf additions series,
          range.minimum ≤ v ∧ v ≤ range.maximum := by
        intro series v hv
        obtain ⟨pair, hpair, rfl⟩ := List.mem_map.mp hv
        apply hbounds
        rw [hplot]
        exact List.mem_map_of_mem (List.mem_filter.mp hpair).1
      have hcountBins : (ofAdditions binCount ⟨none, none⟩ additions).binCount = binCount := by
        rw [hplot]
      simp only [data, hrange, hcountBins, histograms_ofAdditions, List.mapM_map]
      exact exists_mapM fun series _ => seriesData_counts hcount (hvalues series)

end HistogramPlot
end Plots
end Roofline
