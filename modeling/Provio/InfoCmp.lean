import Provio.Signs
import Provio.InfoStr
/-!
# InfoCmp — comparing and copying the connector info

`H5VL_provenance_info_cmp` compares class, underlying info, path, format and level, and stops at the first that differ.
The level comes last and as a difference of two `int`, which wraps: the comparison orders a set of infos exactly when
no levels in it are so far apart that the wrap shows (`infoCmp_order_iff`).
-/
namespace Provio

open Signs (TotalOn first)

/-- The HDF5 calls on two connectors' infos; a copy can fail. -/
structure VolCmp (Id U : Type) where
  H5VLcmp_connector_cls   : Id → Id → Int
  H5VLcmp_connector_info  : Id → Option U → Option U → Int
  H5VLcopy_connector_info : Id → U → Option U

/-- `strcmp`, of which only the sign is defined. -/
def compareStrings : CStr → CStr → Int
  | [], []         => 0
  | [], _ :: _     => -1
  | _ :: _, []     => 1
  | c :: s, d :: t => if c = d then compareStrings s t else (c.toNat : Int) - d.toNat

def strcmp (s t : Option CStr) : Except Fault Int := do
  let s ← strcpy s
  let t ← strcpy t
  pure (compareStrings s t)

section Callbacks

variable {Id U : Type}

def infoCopy (vol : VolCmp Id U) (info : ProvenanceInfo Id U) : ProvenanceInfo Id U :=
  { info with under_vol_info := info.under_vol_info.bind (vol.H5VLcopy_connector_info info.under_vol_id) }

/-- `*cmp_value`. -/
def infoCmp (vol : VolCmp Id U) (info1 info2 : ProvenanceInfo Id U) : Except Fault Int :=
  let cmp_value := vol.H5VLcmp_connector_cls info1.under_vol_id info2.under_vol_id
  if cmp_value ≠ 0 then .ok cmp_value
  else
    let cmp_value := vol.H5VLcmp_connector_info info1.under_vol_id info1.under_vol_info info2.under_vol_info
    if cmp_value ≠ 0 then .ok cmp_value
    else do
      let cmp_value ← strcmp info1.prov_file_path info2.prov_file_path
      if cmp_value ≠ 0 then pure cmp_value
      else do
        let cmp_value ← strcmp info1.prov_line_format info2.prov_line_format
        if cmp_value ≠ 0 then pure cmp_value
        else pure (info1.prov_level - info2.prov_level).toInt

/-- What decoding and copying produce: both texts are there. -/
def Produced (info : ProvenanceInfo Id U) : Prop := info.prov_file_path.isSome ∧ info.prov_line_format.isSome

theorem strToInfo_produced {vol : Vol Id U} {uninit : BitVec 32} {str : CStr} {info : ProvenanceInfo Id U}
    (h : strToInfo vol uninit str = .ok info) : Produced info := by
  unfold strToInfo at h
  split at h
  · obtain ⟨-, -, h⟩ := bind_eq_ok.1 h
    split at h
    · cases h
    · obtain ⟨r, -, h⟩ := bind_eq_ok.1 h
      obtain rfl := Except.ok.inj h
      exact ⟨rfl, rfl⟩
  · cases h
  · cases h

theorem infoCopy_produced {vol : VolCmp Id U} {info : ProvenanceInfo Id U} (h : Produced info) :
    Produced (infoCopy vol info) := h

/-- What the code takes of HDF5: classes and infos are ordered, the infos by their class only, and a copy of an info is
the same. -/
structure ConnectorOrder (vol : VolCmp Id U) : Prop where
  cls  : TotalOn vol.H5VLcmp_connector_cls Set.univ
  info : ∀ id, TotalOn (vol.H5VLcmp_connector_info id) Set.univ
  same : ∀ id₁ id₂ u₁ u₂, vol.H5VLcmp_connector_cls id₁ id₂ = 0 →
    vol.H5VLcmp_connector_info id₁ u₁ u₂ = vol.H5VLcmp_connector_info id₂ u₁ u₂
  copy : ∀ id u, vol.H5VLcmp_connector_info id (some u) (vol.H5VLcopy_connector_info id u) = 0

/-! ## What is compared before the level -/

/-- The two agree in all but the level. -/
structure AgreeButLevel (vol : VolCmp Id U) (a b : ProvenanceInfo Id U) : Prop where
  cls    : vol.H5VLcmp_connector_cls a.under_vol_id b.under_vol_id = 0
  info   : vol.H5VLcmp_connector_info a.under_vol_id a.under_vol_info b.under_vol_info = 0
  path   : a.prov_file_path = b.prov_file_path
  format : a.prov_line_format = b.prov_line_format

theorem compareStrings_eq_zero : ∀ {s t : CStr}, compareStrings s t = 0 ↔ s = t
  | [], [] => by simp [compareStrings]
  | [], _ :: _ => by simp [compareStrings]
  | _ :: _, [] => by simp [compareStrings]
  | c :: s, d :: t => by
    rw [compareStrings, List.cons.injEq]
    by_cases h : c = d
    · rw [if_pos h, compareStrings_eq_zero]
      simp [h]
    · have hne : c.toNat ≠ d.toNat := fun e => h (UInt8.toNat_inj.1 e)
      rw [if_neg h]
      simp only [h, false_and, iff_false]
      omega

theorem compareStrings_neg : ∀ {s t : CStr}, compareStrings s t < 0 ↔ 0 < compareStrings t s
  | [], [] => by simp [compareStrings]
  | [], _ :: _ => by simp [compareStrings]
  | _ :: _, [] => by simp [compareStrings]
  | c :: s, d :: t => by
    rw [compareStrings, compareStrings]
    by_cases h : c = d
    · rw [if_pos h, if_pos h.symm]
      exact compareStrings_neg
    · rw [if_neg h, if_neg (Ne.symm h)]
      omega

theorem compareStrings_trans : ∀ {s t u : CStr}, compareStrings s t ≤ 0 → compareStrings t u ≤ 0 →
    compareStrings s u ≤ 0
  | [], _, [], _, _ => by simp [compareStrings]
  | [], _, _ :: _, _, _ => by simp [compareStrings]
  | _ :: _, [], _, h, _ => by simp [compareStrings] at h
  | _ :: _, _ :: _, [], _, h => by simp [compareStrings] at h
  | c :: s, d :: t, e :: u, hst, htu => by
    rw [compareStrings] at hst htu ⊢
    by_cases hcd : c = d
    · subst hcd
      rw [if_pos rfl] at hst
      by_cases hce : c = e
      · rw [if_pos hce] at htu ⊢
        exact compareStrings_trans hst htu
      · rwa [if_neg hce] at htu ⊢
    · rw [if_neg hcd] at hst
      by_cases hde : d = e
      · subst hde
        rwa [if_neg hcd]
      · rw [if_neg hde] at htu
        have hne : c.toNat ≠ d.toNat := fun h => hcd (UInt8.toNat_inj.1 h)
        have hce : c ≠ e := fun h => by
          subst h
          omega
        rw [if_neg hce]
        omega

theorem compareStrings_totalOn (S : Set CStr) : TotalOn compareStrings S :=
  ⟨fun _ _ _ _ => compareStrings_neg, fun _ _ _ _ _ _ => compareStrings_trans⟩

def pathOf (info : ProvenanceInfo Id U) : CStr := info.prov_file_path.getD []

def formatOf (info : ProvenanceInfo Id U) : CStr := info.prov_line_format.getD []

def compareTexts (vol : VolCmp Id U) : ProvenanceInfo Id U → ProvenanceInfo Id U → Int :=
  first (fun a b => vol.H5VLcmp_connector_cls a.under_vol_id b.under_vol_id)
    (first (fun a b => vol.H5VLcmp_connector_info a.under_vol_id a.under_vol_info b.under_vol_info)
      (first (fun a b => compareStrings (pathOf a) (pathOf b)) fun a b => compareStrings (formatOf a) (formatOf b)))

def compareLevels (a b : ProvenanceInfo Id U) : Int := (a.prov_level - b.prov_level).toInt

variable {vol : VolCmp Id U} {a b c : ProvenanceInfo Id U}

/-- **On infos with both texts the comparison returns the first of the five that is not 0.** -/
theorem infoCmp_eq (ha : Produced a) (hb : Produced b) :
    infoCmp vol a b = .ok (first (compareTexts vol) compareLevels a b) := by
  obtain ⟨⟨pa, hpa⟩, fa, hfa⟩ := And.imp Option.isSome_iff_exists.1 Option.isSome_iff_exists.1 ha
  obtain ⟨⟨pb, hpb⟩, fb, hfb⟩ := And.imp Option.isSome_iff_exists.1 Option.isSome_iff_exists.1 hb
  have hpath : strcmp a.prov_file_path b.prov_file_path = .ok (compareStrings (pathOf a) (pathOf b)) := by
    simp only [strcmp, strcpy, pathOf, hpa, hpb, Option.getD_some]
    rfl
  have hformat : strcmp a.prov_line_format b.prov_line_format = .ok (compareStrings (formatOf a) (formatOf b)) := by
    simp only [strcmp, strcpy, formatOf, hfa, hfb, Option.getD_some]
    rfl
  unfold infoCmp compareTexts
  rw [Signs.first_assoc, Signs.first_assoc, Signs.first_assoc, hpath, hformat]
  simp only [ok_bind, first]
  split
  · rfl
  · split
    · rfl
    · split
      · rfl
      · split <;> rfl

theorem compareTexts_eq_zero (ha : Produced a) (hb : Produced b) : compareTexts vol a b = 0 ↔ AgreeButLevel vol a b := by
  obtain ⟨⟨pa, hpa⟩, fa, hfa⟩ := And.imp Option.isSome_iff_exists.1 Option.isSome_iff_exists.1 ha
  obtain ⟨⟨pb, hpb⟩, fb, hfb⟩ := And.imp Option.isSome_iff_exists.1 Option.isSome_iff_exists.1 hb
  simp only [compareTexts, Signs.first_eq_zero, compareStrings_eq_zero, pathOf, formatOf, hpa, hpb, hfa, hfb,
    Option.getD_some]
  constructor
  · rintro ⟨hcls, hinfo, hpath, hformat⟩
    exact ⟨hcls, hinfo, by rw [hpa, hpb, hpath], by rw [hfa, hfb, hformat]⟩
  · rintro ⟨hcls, hinfo, hpath, hformat⟩
    rw [hpa, hpb] at hpath
    rw [hfa, hfb] at hformat
    exact ⟨hcls, hinfo, Option.some.inj hpath, Option.some.inj hformat⟩

/-- **The first four comparisons order every set of infos.** -/
theorem compareTexts_totalOn (hvol : ConnectorOrder vol) (S : Set (ProvenanceInfo Id U)) :
    TotalOn (compareTexts vol) S := by
  have htexts : ∀ T : Set (ProvenanceInfo Id U),
      TotalOn (first (fun a b => compareStrings (pathOf a) (pathOf b))
        fun a b => compareStrings (formatOf a) (formatOf b)) T := by
    intro T
    apply TotalOn.first
    · exact (compareStrings_totalOn Set.univ).comap pathOf fun _ _ => trivial
    · exact fun _ _ => (compareStrings_totalOn Set.univ).comap formatOf fun _ _ => trivial
  apply TotalOn.first
  · exact hvol.cls.comap ProvenanceInfo.under_vol_id fun _ _ => trivial
  · intro a _
    apply TotalOn.first
    · -- within a class the first info's connector stands for all
      apply ((hvol.info a.under_vol_id).comap ProvenanceInfo.under_vol_info fun _ _ => trivial).congr
      intro b hb c _
      exact (hvol.same _ _ _ _ hb.2).symm
    · exact fun _ _ => htexts _

/-! ## The level -/

theorem level_bounds (a : ProvenanceInfo Id U) : -2 ^ 31 ≤ a.prov_level.toInt ∧ a.prov_level.toInt < 2 ^ 31 :=
  ⟨BitVec.le_toInt a.prov_level, BitVec.toInt_lt⟩

/-- **The difference of two levels wraps once it leaves the `int` range.** -/
theorem compareLevels_cases (a b : ProvenanceInfo Id U) :
    (-2 ^ 31 ≤ a.prov_level.toInt - b.prov_level.toInt ∧ a.prov_level.toInt - b.prov_level.toInt < 2 ^ 31 ∧
      compareLevels a b = a.prov_level.toInt - b.prov_level.toInt) ∨
    (2 ^ 31 ≤ a.prov_level.toInt - b.prov_level.toInt ∧
      compareLevels a b = a.prov_level.toInt - b.prov_level.toInt - 2 ^ 32) ∨
    (a.prov_level.toInt - b.prov_level.toInt < -2 ^ 31 ∧
      compareLevels a b = a.prov_level.toInt - b.prov_level.toInt + 2 ^ 32) := by
  have ha := level_bounds a
  have hb := level_bounds b
  rw [compareLevels, BitVec.toInt_sub]
  generalize a.prov_level.toInt = x at *
  generalize b.prov_level.toInt = y at *
  have hbmod := Int.bmod_def (x - y) (2 ^ 32)
  omega

theorem compareLevels_eq_zero : compareLevels a b = 0 ↔ a.prov_level = b.prov_level := by
  have hcases := compareLevels_cases a b
  have ha := level_bounds a
  have hb := level_bounds b
  rw [← BitVec.toInt_inj]
  omega

/-- Levels of infos that otherwise agree are never exactly half the `int` range apart, and no three of them go round
it. -/
structure LevelsFit (vol : VolCmp Id U) (S : Set (ProvenanceInfo Id U)) : Prop where
  apart : ∀ a ∈ S, ∀ b ∈ S, AgreeButLevel vol a b → b.prov_level.toInt - a.prov_level.toInt ≠ 2 ^ 31
  round : ∀ a ∈ S, ∀ b ∈ S, ∀ c ∈ S, AgreeButLevel vol a b → AgreeButLevel vol b c →
    a.prov_level.toInt < b.prov_level.toInt → b.prov_level.toInt < c.prov_level.toInt →
    b.prov_level.toInt - a.prov_level.toInt < 2 ^ 31 → c.prov_level.toInt - b.prov_level.toInt < 2 ^ 31 →
    c.prov_level.toInt - a.prov_level.toInt < 2 ^ 31

theorem LevelsFit.of_range {S : Set (ProvenanceInfo Id U)} (lo : Int)
    (h : ∀ a ∈ S, lo ≤ a.prov_level.toInt ∧ a.prov_level.toInt < lo + 2 ^ 31) : LevelsFit vol S := by
  constructor
  · intro a ha b hb _
    have := h a ha
    have := h b hb
    omega
  · intro a ha b _ c hc _ _ _ _ _ _
    have := h a ha
    have := h c hc
    omega

/-- **On a set the wrapped differences are ordered exactly when its levels do not meet the wrap.** -/
theorem compareLevels_totalOn_iff (T : Set (ProvenanceInfo Id U)) : TotalOn compareLevels T ↔
    (∀ a ∈ T, ∀ b ∈ T, b.prov_level.toInt - a.prov_level.toInt ≠ 2 ^ 31) ∧
    ∀ a ∈ T, ∀ b ∈ T, ∀ c ∈ T, a.prov_level.toInt < b.prov_level.toInt → b.prov_level.toInt < c.prov_level.toInt →
      b.prov_level.toInt - a.prov_level.toInt < 2 ^ 31 → c.prov_level.toInt - b.prov_level.toInt < 2 ^ 31 →
      c.prov_level.toInt - a.prov_level.toInt < 2 ^ 31 := by
  constructor
  · intro h
    have hapart : ∀ a ∈ T, ∀ b ∈ T, b.prov_level.toInt - a.prov_level.toInt ≠ 2 ^ 31 := by
      intro a ha b hb
      have := h.antisymm a ha b hb
      have := compareLevels_cases a b
      have := compareLevels_cases b a
      omega
    refine ⟨hapart, fun a ha b hb c hc hab hbc hab' hbc' => ?_⟩
    have := h.trans a ha b hb c hc
    have := hapart a ha c hc
    have := compareLevels_cases a b
    have := compareLevels_cases b c
    have := compareLevels_cases a c
    omega
  · rintro ⟨hapart, hround⟩
    constructor
    · intro a ha b hb
      have := hapart a ha b hb
      have := hapart b hb a ha
      have := compareLevels_cases a b
      have := compareLevels_cases b a
      omega
    · intro a ha b hb c hc hab hbc
      have hne₁ := hapart a ha b hb
      have hne₂ := hapart b hb c hc
      have hne₃ := hapart c hc a ha
      by_contra hac
      -- the three stand in one of the rotations of their order
      have habc := hround a ha b hb c hc
      have hbca := hround b hb c hc a ha
      have hcab := hround c hc a ha b hb
      have hx := level_bounds a
      have hy := level_bounds b
      have hz := level_bounds c
      rcases compareLevels_cases a b with h₁ | h₁ | h₁ <;> rcases compareLevels_cases b c with h₂ | h₂ | h₂ <;>
        rcases compareLevels_cases a c with h₃ | h₃ | h₃ <;> omega

/-! ## The order -/

/-- The comparison is a total order on the infos of a set, 0 exactly between those that agree in everything, and 0
between an info and its copy. -/
structure InfoOrder (vol : VolCmp Id U) (S : Set (ProvenanceInfo Id U)) : Prop where
  total : ∃ cmp_value, (∀ a ∈ S, ∀ b ∈ S, infoCmp vol a b = .ok (cmp_value a b)) ∧ TotalOn cmp_value S
  zero  : ∀ a ∈ S, ∀ b ∈ S, infoCmp vol a b = .ok 0 ↔ AgreeButLevel vol a b ∧ a.prov_level = b.prov_level
  copy  : ∀ a ∈ S, infoCmp vol a (infoCopy vol a) = .ok 0

theorem infoCmp_zero_iff (ha : Produced a) (hb : Produced b) :
    infoCmp vol a b = .ok 0 ↔ AgreeButLevel vol a b ∧ a.prov_level = b.prov_level := by
  rw [infoCmp_eq ha hb, Except.ok.injEq, Signs.first_eq_zero, compareTexts_eq_zero ha hb, compareLevels_eq_zero]

theorem agree_infoCopy (hvol : ConnectorOrder vol) (a : ProvenanceInfo Id U) : AgreeButLevel vol a (infoCopy vol a) := by
  refine ⟨hvol.cls.self trivial, ?_, rfl, rfl⟩
  cases hu : a.under_vol_info with
  | none =>
    rw [infoCopy, hu]
    exact (hvol.info _).self trivial
  | some u =>
    rw [infoCopy, hu]
    exact hvol.copy _ u

theorem total_iff {S : Set (ProvenanceInfo Id U)} (hS : ∀ a ∈ S, Produced a) :
    (∃ cmp_value, (∀ a ∈ S, ∀ b ∈ S, infoCmp vol a b = .ok (cmp_value a b)) ∧ TotalOn cmp_value S) ↔
      TotalOn (first (compareTexts vol) compareLevels) S := by
  constructor
  · rintro ⟨cmp_value, hrun, h⟩
    apply h.congr
    intro a ha b hb
    exact Except.ok.inj ((infoCmp_eq (hS a ha) (hS b hb)).symm.trans (hrun a ha b hb))
  · exact fun h => ⟨_, fun a ha b hb => infoCmp_eq (hS a ha) (hS b hb), h⟩

theorem levelsFit_iff (hvol : ConnectorOrder vol) {S : Set (ProvenanceInfo Id U)} (hS : ∀ a ∈ S, Produced a) :
    (∀ a ∈ S, TotalOn compareLevels (Signs.classOf (compareTexts vol) S a)) ↔ LevelsFit vol S := by
  have htexts := compareTexts_totalOn hvol S
  constructor
  · intro h
    constructor
    · intro a ha b hb hab
      exact ((compareLevels_totalOn_iff _).1 (h a ha)).1 a ⟨ha, htexts.self ha⟩ b
        ⟨hb, (compareTexts_eq_zero (hS a ha) (hS b hb)).2 hab⟩
    · intro a ha b hb c hc hab hbc
      have hzab := (compareTexts_eq_zero (hS a ha) (hS b hb)).2 hab
      have hzbc := (compareTexts_eq_zero (hS b hb) (hS c hc)).2 hbc
      exact ((compareLevels_totalOn_iff _).1 (h a ha)).2 a ⟨ha, htexts.self ha⟩ b ⟨hb, hzab⟩ c
        ⟨hc, htexts.zero_trans ha hb hc hzab hzbc⟩
  · rintro ⟨hapart, hround⟩ a ha
    have hagree : ∀ x ∈ Signs.classOf (compareTexts vol) S a, ∀ y ∈ Signs.classOf (compareTexts vol) S a,
        AgreeButLevel vol x y := by
      rintro x ⟨hx, hax⟩ y ⟨hy, hay⟩
      apply (compareTexts_eq_zero (hS x hx) (hS y hy)).1
      exact htexts.zero_trans hx ha hy (htexts.zero_comm ha hx hax) hay
    apply (compareLevels_totalOn_iff _).2
    refine ⟨fun x hx y hy => hapart x hx.1 y hy.1 (hagree x hx y hy), fun x hx y hy z hz => ?_⟩
    exact hround x hx.1 y hy.1 z hz.1 (hagree x hx y hy) (hagree y hy z hz)

/-- **A set of decoded or copied infos is ordered by the comparison exactly when its levels fit.** -/
theorem infoCmp_order_iff (vol : VolCmp Id U) (hvol : ConnectorOrder vol) (S : Set (ProvenanceInfo Id U))
    (hS : ∀ a ∈ S, Produced a) : InfoOrder vol S ↔ LevelsFit vol S := by
  rw [← levelsFit_iff hvol hS, ← Signs.first_totalOn_iff (compareTexts_totalOn hvol S), ← total_iff hS]
  constructor
  · exact fun h => h.total
  · intro h
    refine ⟨h, fun a ha b hb => infoCmp_zero_iff (hS a ha) (hS b hb), fun a ha => ?_⟩
    exact (infoCmp_zero_iff (hS a ha) (infoCopy_produced (hS a ha))).2 ⟨agree_infoCopy hvol a, rfl⟩

end Callbacks

def plainCmp : VolCmp Unit Unit := ⟨fun _ _ => 0, fun _ _ _ => 0, fun _ u => some u⟩

theorem plainCmp_order : ConnectorOrder plainCmp :=
  ⟨⟨fun _ _ _ _ => Iff.rfl, fun _ _ _ _ _ _ _ _ => le_refl 0⟩,
    fun _ => ⟨fun _ _ _ _ => Iff.rfl, fun _ _ _ _ _ _ _ _ => le_refl 0⟩, fun _ _ _ _ _ => rfl, fun _ _ => rfl⟩

/-- The documented levels are 0, 1 and 2. -/
theorem infoCmp_order_levels :
    InfoOrder plainCmp {info | Produced info ∧ 0 ≤ info.prov_level.toInt ∧ info.prov_level.toInt ≤ 2} := by
  refine (infoCmp_order_iff plainCmp plainCmp_order _ fun a ha => ha.1).2 (LevelsFit.of_range 0 ?_)
  rintro a ⟨-, hlo, hhi⟩
  omega

/-- The lowest level and 0 each come before the other. -/
theorem infoCmp_no_order : ConnectorOrder plainCmp ∧ ¬ InfoOrder plainCmp {info | Produced info} := by
  refine ⟨plainCmp_order, fun h => ?_⟩
  obtain ⟨cmp_value, hrun, htotal⟩ := h.total
  have hlow : Produced (⟨(), none, some [], BitVec.intMin 32, some []⟩ : ProvenanceInfo Unit Unit) := ⟨rfl, rfl⟩
  have hzero : Produced (⟨(), none, some [], 0, some []⟩ : ProvenanceInfo Unit Unit) := ⟨rfl, rfl⟩
  have h₁ := Except.ok.inj ((hrun _ hlow _ hzero).symm.trans (infoCmp_eq hlow hzero))
  have h₂ := Except.ok.inj ((hrun _ hzero _ hlow).symm.trans (infoCmp_eq hzero hlow))
  have hanti := htotal.antisymm _ hlow _ hzero
  rw [h₁, h₂] at hanti
  revert hanti
  decide

end Provio
