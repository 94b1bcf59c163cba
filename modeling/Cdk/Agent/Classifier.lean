import Cdk.Boot.Initrd

/-!
# Linear classifiers

An agent evaluates a linear model in integers, with weights of one byte and biases of four.
The sums are cut to 32 bits before they are compared.  `classify_exact_iff` says when the winner is
still the first class with the largest sum, with the right margin: no class before it is cut to the
same value, and the two largest sums fit, are equal, or are too far apart for a margin.
-/

namespace Cdk.Ml

open ByteFormat Boot

/-- The first bytes of a model. -/
def magic : Bytes := ascii "CDKLM1" ++ [0, 0]

/-- Bytes before the labels. -/
def headerLen : Nat := 16

/-- Bytes of a label. -/
def labelLen : Nat := 16

/-- Features at most. -/
def maxFeatures : Nat := 1024

/-- Classes at most. -/
def maxClasses : Nat := 16

/-- How the features are made. -/
inductive FeatureKind
  | custom
  | hashedTrigrams
  deriving DecidableEq

/-- The kind that a byte stands for. -/
def FeatureKind.ofByte : UInt8 → Option FeatureKind
  | 0 => some .custom
  | 1 => some .hashedTrigrams
  | _ => none

/-- Why a model is refused. -/
inductive ModelError
  | badMagic
  | badShape
  | badFeatureKind
  | badLength
  | badLabel
  | featureCount
  deriving DecidableEq

/-- A model as the parser accepts it. -/
structure Model where
  nFeatures : Nat
  nClasses : Nat
  kind : FeatureKind
  logitScaleMicro : Nat
  labels : Bytes
  bias : Bytes
  weights : Bytes
  classes : 2 ≤ nClasses ∧ nClasses ≤ maxClasses

/-- A label: visible characters, then zeros. -/
def validLabel (raw : Bytes) : Bool :=
  let label := raw.takeWhile (· != 0)
  !label.isEmpty && label.all isAsciiGraphic

/-- Parse a model; every byte counts. -/
def Model.parse (bytes : Bytes) : Except ModelError Model :=
  let nFeatures := leValue (field bytes 8 2)
  let nClasses := leValue (field bytes 10 1)
  let labels := field bytes headerLen (labelLen * nClasses)
  let labelsEnd := headerLen + labelLen * nClasses
  let biasEnd := labelsEnd + 4 * nClasses
  if bytes.length < headerLen ∨ bytes.take 8 ≠ magic then .error .badMagic
  else if shape : (1 ≤ nFeatures ∧ nFeatures ≤ maxFeatures) ∧
      2 ≤ nClasses ∧ nClasses ≤ maxClasses then
    match FeatureKind.ofByte (bytes.getD 11 0) with
    | none => .error .badFeatureKind
    | some kind =>
      if bytes.length ≠ biasEnd + nClasses * nFeatures then .error .badLength
      else if (List.range nClasses).all fun c =>
          validLabel (field labels (c * labelLen) labelLen) then
        .ok {
          nFeatures, nClasses, kind, labels
          logitScaleMicro := leValue (field bytes 12 4)
          bias := field bytes labelsEnd (4 * nClasses)
          weights := field bytes biasEnd (nClasses * nFeatures)
          classes := shape.2 }
      else .error .badLabel
  else .error .badShape

/-! ## The logits -/

/-- The least number of 32 bits. -/
def i32Min : Int := -2147483648

/-- The largest number of 32 bits. -/
def i32Max : Int := 2147483647

/-- The number fits into 32 bits. -/
def FitsI32 (value : Int) : Prop := i32Min ≤ value ∧ value ≤ i32Max

/-- The number, cut to 32 bits. -/
def clamp (value : Int) : Int := max i32Min (min value i32Max)

theorem clamp_mono {low high : Int} (le : low ≤ high) : clamp low ≤ clamp high :=
  max_le_max_left _ (min_le_min_right _ le)

/-- The distance of two numbers that are cut, if it fits. -/
theorem clamp_sub_iff {low high : Int} (le : low ≤ high) (fits : FitsI32 (high - low)) :
    clamp (clamp high - clamp low) = high - low ↔ high = low ∨ FitsI32 high ∧ FitsI32 low := by
  simp only [clamp, FitsI32, i32Min, i32Max] at fits ⊢
  omega

section

variable (model : Model) (features : Bytes) (c : Nat)

/-- The bias of a class. -/
def Model.biasOf : Int := (BitVec.ofNat 32 (leValue (field model.bias (4 * c) 4))).toInt

/-- The weights of a class. -/
def Model.row : Bytes := field model.weights (c * model.nFeatures) model.nFeatures

/-- One product: a signed byte times a byte. -/
def weigh (w x : UInt8) : Int := w.toInt8.toInt * x.toNat

/-- The accumulator has 64 bits, which at most 1024 products of two bytes do not exceed. -/
def Model.accumulate : Int :=
  ((model.row c).zip features).foldl (fun acc (w, x) => acc + weigh w x) (model.biasOf c)

/-- The logits of the classes, in the first slots of `out`. -/
def Model.logits (out : List Int) : Except ModelError (List Int) :=
  if features.length ≠ model.nFeatures ∨ out.length < model.nClasses then .error .featureCount
  else .ok ((List.range model.nClasses).map (fun c => clamp (model.accumulate features c)) ++
    out.drop model.nClasses)

/-- The logit in integers without a bound. -/
def Model.exact : Int := model.biasOf c + (List.zipWith weigh (model.row c) features).sum

theorem Model.accumulate_eq : model.accumulate features c = model.exact features c := by
  rw [accumulate, exact, ← List.map_uncurry_zip_eq_zipWith]
  generalize model.biasOf c = acc
  induction (model.row c).zip features generalizing acc with
  | nil => exact (add_zero acc).symm
  | cons pair rest ih => rw [List.foldl_cons, ih, List.map_cons, List.sum_cons, add_assoc]; rfl

end

/-! ## The winner -/

/-- The result of a classification. -/
structure Prediction where
  classIndex : Nat
  logit : Int
  margin : Int
  deriving DecidableEq

/-- The first class from 0 to `last` with the largest value. -/
def best (value : Nat → Int) (last : Nat) : Nat :=
  (List.range' 1 last).foldl (fun best c => if value c > value best then c else best) 0

/-- The first largest logit, and how far it is ahead of the others. -/
def predict (logits : List Int) : Prediction :=
  let best := best (logits.getD · 0) (logits.length - 1)
  let logit := logits.getD best 0
  let runnerUp := (logits.eraseIdx best).max?.getD logit
  ⟨best, logit, clamp (logit - runnerUp)⟩

/-- Classify a feature vector. -/
def Model.classify (model : Model) (features : Bytes) : Except ModelError Prediction := do
  let logits ← model.logits features (List.replicate maxClasses 0)
  return predict (logits.take model.nClasses)

/-- The class is the first with the largest value. -/
structure Wins (value : Nat → Int) (count best : Nat) : Prop where
  isClass : best < count
  largest : ∀ c < count, value c ≤ value best
  first : ∀ c < best, value c < value best

theorem wins_best (value : Nat → Int) (last : Nat) : Wins value (last + 1) (best value last) := by
  induction last with
  | zero => exact ⟨Nat.one_pos, fun c low => by rw [Nat.lt_one_iff.mp low]; rfl, nofun⟩
  | succ last ih =>
    rw [best, List.range'_1_concat, List.foldl_append, List.foldl_cons, List.foldl_nil, ← best,
      Nat.add_comm 1]
    split_ifs with more
    · refine ⟨Nat.lt_succ_self _, fun c low => ?_, fun c low => (ih.largest c low).trans_lt more⟩
      obtain low | rfl := Nat.lt_succ_iff_lt_or_eq.mp low
      · exact ((ih.largest c low).trans_lt more).le
      · exact le_rfl
    · refine ⟨ih.isClass.trans (Nat.lt_succ_self _), fun c low => ?_, ih.first⟩
      obtain low | rfl := Nat.lt_succ_iff_lt_or_eq.mp low
      · exact ih.largest c low
      · exact not_lt.mp more

theorem Wins.unique (wins : Wins value count winner) (other : Wins value count next) :
    winner = next := by
  rcases Nat.lt_trichotomy winner next with less | same | more
  · exact absurd (wins.largest next other.isClass) (not_le.mpr (other.first winner less))
  · exact same
  · exact absurd (other.largest winner wins.isClass) (not_le.mpr (wins.first next more))

/-- A class with the largest value besides the winner. -/
structure Seconds (value : Nat → Int) (count best second : Nat) : Prop where
  isClass : second < count
  apart : second ≠ best
  largest : ∀ c < count, c ≠ best → value c ≤ value second

/-- The winner is ahead of the second by the margin, if that fits into 32 bits. -/
structure Predicts (value : Nat → Int) (count : Nat) (prediction : Prediction) : Prop where
  wins : Wins value count prediction.classIndex
  margin : ∃ second, Seconds value count prediction.classIndex second ∧
    (FitsI32 (value prediction.classIndex - value second) →
      prediction.margin = value prediction.classIndex - value second)

/-- Cutting to 32 bits does no harm: no class before the winner is cut to the
same value, and if the distance to the second fits, it is zero or both are not cut. -/
def Distinguishes (value : Nat → Int) (count : Nat) : Prop :=
  ∃ best second, Wins value count best ∧ Seconds value count best second ∧
    (∀ c < best, clamp (value c) < clamp (value best)) ∧
    (FitsI32 (value best - value second) →
      value best = value second ∨ FitsI32 (value best) ∧ FitsI32 (value second))

theorem predict_spec {value : Nat → Int} {count : Nat} (two : 2 ≤ count) :
    let prediction := predict ((List.range count).map value)
    Wins value count prediction.classIndex ∧
      ∃ second, Seconds value count prediction.classIndex second ∧
        prediction.margin = clamp (value prediction.classIndex - value second) := by
  have each : ∀ c < count, ((List.range count).map value).getD c 0 = value c := by
    intro c low
    simp [low]
  have wins := wins_best (((List.range count).map value).getD · 0) (count - 1)
  rw [Nat.sub_add_cancel (by omega)] at wins
  unfold predict
  simp only [List.length_map, List.length_range]
  generalize best _ _ = best at wins ⊢
  have others : ∀ {other}, other ∈ ((List.range count).map value).eraseIdx best ↔
      ∃ c < count, c ≠ best ∧ value c = other := by
    intro other
    simp only [List.mem_eraseIdx_iff_getElem?, List.getElem?_eq_some_iff, List.length_map,
      List.length_range, List.getElem_map, List.getElem_range, exists_prop]
    exact exists_congr fun c => and_left_comm
  obtain ⟨c, low, other⟩ : ∃ c < count, c ≠ best := by
    by_cases zero : best = 0
    · exact ⟨1, two, zero ▸ Nat.one_ne_zero⟩
    · exact ⟨0, by omega, Ne.symm zero⟩
  obtain ⟨second, isMax⟩ := Option.ne_none_iff_exists'.mp
    (mt List.max?_eq_none_iff.mp (List.ne_nil_of_mem (others.mpr ⟨c, low, other, rfl⟩)))
  obtain ⟨member, most⟩ := List.max?_eq_some_iff.mp isMax
  obtain ⟨second, isClass, apart, rfl⟩ := others.mp member
  refine ⟨⟨wins.isClass, fun c low => ?_, fun c low => ?_⟩, second,
    ⟨isClass, apart, fun c low other => most _ (others.mpr ⟨c, low, other, rfl⟩)⟩, ?_⟩
  · simpa only [each c low, each best wins.isClass] using wins.largest c low
  · simpa only [each c (low.trans wins.isClass), each best wins.isClass] using wins.first c low
  · rw [isMax, each best wins.isClass, Option.getD_some]

/-- The second largest logit, cut, is the second largest of the cut ones. -/
theorem Seconds.clamp_eq
    (exact : Seconds value count winner second)
    (cut : Seconds (fun c => clamp (value c)) count winner other) :
    clamp (value other) = clamp (value second) :=
  le_antisymm (clamp_mono (exact.largest other cut.isClass cut.apart))
    (cut.largest second exact.isClass exact.apart)

/-- What is predicted from the cut logits is right for the exact ones exactly
if cutting does no harm. -/
theorem predicts_iff {value : Nat → Int} {count : Nat} (two : 2 ≤ count) :
    Predicts value count (predict ((List.range count).map fun c => clamp (value c))) ↔
      Distinguishes value count := by
  obtain ⟨wins, other, seconds, margin⟩ := @predict_spec (fun c => clamp (value c)) count two
  generalize predict _ = prediction at wins seconds margin ⊢
  constructor
  · rintro ⟨exact, second, isSecond, distance⟩
    refine ⟨_, second, exact, isSecond, wins.first, fun fits => ?_⟩
    have right := distance fits
    rw [margin, isSecond.clamp_eq seconds] at right
    exact (clamp_sub_iff (exact.largest second isSecond.isClass) fits).mp right
  · rintro ⟨best, second, exact, isSecond, first, close⟩
    -- The winner of the exact logits also wins after they are cut.
    have cut : Wins (fun c => clamp (value c)) count best :=
      ⟨exact.isClass, fun c low => clamp_mono (exact.largest c low), first⟩
    obtain rfl := cut.unique wins
    refine ⟨exact, second, isSecond, fun fits => ?_⟩
    rw [margin, isSecond.clamp_eq seconds]
    exact (clamp_sub_iff (exact.largest second isSecond.isClass) fits).mpr (close fits)

/-- The first class with the largest exact logit is predicted, with its distance to the
largest of the others, exactly if cutting the logits to 32 bits does no harm. -/
theorem classify_exact_iff
    {model : Model}
    {features : Bytes}
    (length : features.length = model.nFeatures) :
    (∃ prediction, model.classify features = .ok prediction ∧
      Predicts (model.exact features) model.nClasses prediction) ↔
    Distinguishes (model.exact features) model.nClasses := by
  obtain ⟨two, most⟩ := model.classes
  have classified : model.classify features =
      .ok (predict ((List.range model.nClasses).map fun c => clamp (model.exact features c))) := by
    simp only [← Model.accumulate_eq]
    rw [Model.classify, Model.logits, if_neg (by simp; omega)]
    exact congrArg (fun logits => Except.ok (predict logits)) (List.take_left' (by simp))
  rw [← predicts_iff two, classified]
  constructor
  · rintro ⟨prediction, ⟨⟩, predicts⟩
    exact predicts
  · exact fun predicts => ⟨_, rfl, predicts⟩

/-- A model with one feature and three classes, of which the first has the
least bias and a negative weight. -/
def bottomed : Bytes :=
  magic ++ [1, 0, 3, 0, 0, 0, 0, 0] ++ (97 :: List.replicate 15 0) ++ (98 :: List.replicate 15 0) ++
    (99 :: List.replicate 15 0) ++ [0, 0, 0, 128, 0, 0, 0, 0, 5, 0, 0, 0, 255, 0, 0]

/-- The logit of the first class does not fit, and yet nothing is lost. -/
theorem classify_exact_bottomed :
    ∃ model, Model.parse bottomed = .ok model ∧ ¬FitsI32 (model.exact [1] 0) ∧
      ∃ prediction, model.classify [1] = .ok prediction ∧
        Predicts (model.exact [1]) model.nClasses prediction := by
  refine ⟨_, rfl, by unfold FitsI32; decide, (classify_exact_iff rfl).mpr ⟨2, 1, ?_⟩⟩
  refine ⟨⟨by decide, by decide, by decide⟩, ⟨by decide, by decide, by decide⟩, by decide, ?_⟩
  exact fun _ => .inr (by unfold FitsI32; decide)

/-- A model with one feature and two classes, which both have the largest bias. -/
def topped : Bytes :=
  magic ++ [1, 0, 2, 0, 0, 0, 0, 0] ++ (97 :: List.replicate 15 0) ++ (98 :: List.replicate 15 0) ++
    [255, 255, 255, 127, 255, 255, 255, 127, 0, 1]

/-- The second class has the larger logit by one, and the first one is predicted. -/
theorem classify_topped : ∃ model, Model.parse topped = .ok model ∧
    model.exact [1] 0 < model.exact [1] 1 ∧ model.classify [1] = .ok ⟨0, 2147483647, 0⟩ :=
  ⟨_, rfl, by decide, by decide⟩

end Cdk.Ml
