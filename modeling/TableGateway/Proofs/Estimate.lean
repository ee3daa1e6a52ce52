import TableGateway.Proofs.ComplexityBound
import TableGateway.Proofs.FilterCost
import TableGateway.Proofs.ParamOrder

/-!
# The exact estimate

The estimate is counted in words of 32 bits. Sums and products stay at the largest word instead of going
beyond, only the level of a field is counted by a sum that wraps around. For fields on fewer levels than
that, the estimate is the exact sum of all points, or the largest word if the sum is greater; so a request
that asks for more fields or has more filters is never estimated lower. Main statement:
`Cost.analyze_exact`.
-/
namespace TableGateway

/-! ## Words -/

/-- A number as a word, or the largest word if it is beyond. -/
def word (n : Nat) : UInt32 := .ofNat (Cost.clamp n)

@[simp] theorem toNat_word (n : Nat) : (word n).toNat = Cost.clamp n := by
  unfold word Cost.clamp Number.maxWord
  rw [UInt32.toNat_ofNat']
  omega

/-- A cost that is counted in words. -/
structure WordCost where
  score : UInt32 := 0
  depth : UInt32 := 0
  breadth : UInt32 := 0
  deriving DecidableEq, Repr

namespace WordCost

/-- The sum of two words, or the largest word. -/
def add (a b : UInt32) : UInt32 := word (a.toNat + b.toNat)

/-- The product of two words, or the largest word. -/
def mul (a b : UInt32) : UInt32 := word (a.toNat * b.toNat)

def charge (w : WordCost) (points : UInt32) : WordCost := { w with score := add w.score points }

def count (w : WordCost) : WordCost := { w with breadth := add w.breadth 1 }

mutual

def addFields (level : UInt32) (w : WordCost) : List Field → WordCost
  | [] => w
  | f :: rest => addFields level (addField level w.count f) rest

/-- Add the cost of one field, which is counted already. The next level is an ordinary sum. -/
def addField (level : UInt32) (w : WordCost) : Field → WordCost
  | .wildcard => w.charge 5
  | .column _ => w.charge 1
  | .relation _ _ children _ =>
    (addFields (level + 1) { w with depth := max w.depth level } children).charge (mul 10 level)

end

/-- Charge two points for each of `n` conditions. -/
def chargeConditions (w : WordCost) (n : Nat) : WordCost := w.charge (mul 2 (word n))

def addFilters (params : Params) (w : WordCost) : WordCost :=
  params.filters.foldl
    (fun w (name, values) => values.foldl (fun w v => w.chargeConditions (Cost.conditions name v)) w) w

def addEmbedded (params : Params) (w : WordCost) : WordCost :=
  params.embedded.foldl (fun w (_, _, values) => w.chargeConditions values.length) w

/-- The cost of a request, counted in words. -/
def analyze (fields : List Field) (params : Params) : Except Fault WordCost := do
  let rows ← Cost.pageSize params
  return (({} : WordCost).addFields 1 fields |>.addFilters params |>.addEmbedded params).charge
    (word (rows / 100))

/-- The words count the cost. -/
structure Counts (w : WordCost) (c : Cost) : Prop where
  score : w.score.toNat = c.score
  depth : w.depth.toNat = c.depth
  breadth : w.breadth.toNat = c.breadth

variable {w : WordCost} {c : Cost}

theorem Counts.charge (h : w.Counts c) {points : UInt32} {n : Nat} (same : points.toNat = n) :
    (w.charge points).Counts (c.charge n) := by
  refine ⟨?_, h.depth, h.breadth⟩
  show (add w.score points).toNat = Cost.clamp (c.score + n)
  rw [add, toNat_word, h.score, same]

theorem Counts.count (h : w.Counts c) : w.count.Counts c.count := by
  refine ⟨h.score, h.depth, ?_⟩
  show (add w.breadth 1).toNat = Cost.clamp (c.breadth + 1)
  rw [add, toNat_word, h.breadth]
  rfl

theorem Counts.chargeConditions (h : w.Counts c) (n : Nat) :
    (w.chargeConditions n).Counts (c.chargeConditions n) := by
  apply h.charge
  rw [mul, toNat_word, toNat_word]
  rfl

mutual

/-- Words count the fields at a level, as long as no level below it wraps around. -/
theorem Counts.addFields : ∀ (fields : List Field) (level : UInt32) {w : WordCost} {c : Cost},
    w.Counts c → level.toNat + Field.depthIn fields ≤ Number.maxWord →
    (WordCost.addFields level w fields).Counts (Cost.addFields level.toNat c fields)
  | [], _, _, _, h, _ => h
  | f :: rest, level, w, c, h, levels => by
    rw [Field.depthIn] at levels
    have first := Counts.addField f level h.count (by omega)
    exact Counts.addFields rest level first (by omega)

theorem Counts.addField : ∀ (f : Field) (level : UInt32) {w : WordCost} {c : Cost},
    w.Counts c → level.toNat + f.depth ≤ Number.maxWord →
    (WordCost.addField level w f).Counts (Cost.addField level.toNat c f)
  | .wildcard, _, _, _, h, _ => h.charge rfl
  | .column _, _, _, _, h, _ => h.charge rfl
  | .relation _ _ children _, level, w, c, h, levels => by
    rw [Field.depth] at levels
    have next : (level + 1).toNat = level.toNat + 1 := by
      unfold Number.maxWord at levels
      rw [UInt32.toNat_add, UInt32.toNat_one]
      omega
    have reached : ({ w with depth := max w.depth level } : WordCost).Counts
        { c with depth := max c.depth level.toNat } := by
      refine ⟨h.score, ?_, h.breadth⟩
      rw [UInt32.toNat_max, h.depth]
    have within := Counts.addFields children (level + 1) reached (by omega)
    rw [next] at within
    apply within.charge
    rw [mul, toNat_word]
    rfl

end

/-- Steps that are counted one by one are counted in turn. -/
theorem Counts.foldl {α : Type} {f : WordCost → α → WordCost} {g : Cost → α → Cost}
    (step : ∀ {w c}, w.Counts c → ∀ a, (f w a).Counts (g c a)) (l : List α) (h : w.Counts c) :
    (l.foldl f w).Counts (l.foldl g c) := by
  induction l generalizing w c with
  | nil => exact h
  | cons a l ih => exact ih (step h a)

theorem Counts.addFilters (h : w.Counts c) (params : Params) :
    (w.addFilters params).Counts (c.addFilters params) := by
  unfold WordCost.addFilters Cost.addFilters
  refine Counts.foldl (fun h entry => ?_) _ h
  exact Counts.foldl (fun h value => h.chargeConditions (Cost.conditions entry.1 value)) entry.2 h

theorem Counts.addEmbedded (h : w.Counts c) (params : Params) :
    (w.addEmbedded params).Counts (c.addEmbedded params) := by
  unfold WordCost.addEmbedded Cost.addEmbedded
  refine Counts.foldl (fun h entry => ?_) _ h
  exact h.chargeConditions entry.2.2.length

/-- A request for fields on fewer levels than words count has the same estimate in words. -/
theorem analyze_counts {fields : List Field} {params : Params} {c : Cost}
    (levels : Field.depthIn fields < Number.maxWord) (h : Cost.analyze fields params = .ok c) :
    ∃ w, analyze fields params = .ok w ∧ w.Counts c := by
  unfold Cost.analyze at h
  unfold analyze
  cases sized : Cost.pageSize params with
  | error e =>
    rw [sized] at h
    cases h
  | ok rows =>
    rw [sized] at h
    cases h
    have empty : ({} : WordCost).Counts {} := ⟨rfl, rfl, rfl⟩
    have fromFields := Counts.addFields fields 1 empty (by rw [UInt32.toNat_one]; omega)
    exact ⟨_, rfl, ((fromFields.addFilters params).addEmbedded params).charge (toNat_word _)⟩

end WordCost

/-! ## Points of parameters -/

/-- The points for the values of a parameter, without a bound: two for each condition in a filter of the
table, and two for each value of a filter of a relation. -/
def Params.pointsOf (name : String) (values : List String) : Nat :=
  if isReserved name then 0
  else if name.toList.contains '.' then 2 * values.length
  else 2 * (values.map fun value => Cost.conditions name value).sum

/-- The points for all filters, without a bound. -/
def Params.points (params : Params) : Nat :=
  (params.map fun (name, values) => pointsOf name values).sum

theorem Params.pairs_cons (name : String) (values : List String) (params : Params) :
    pairs ((name, values) :: params) =
      (if isFilter name then values.map (name, ·) else []) ++ pairs params := by
  have first : filters ((name, values) :: params) =
      if isFilter name then (name, values) :: filters params else filters params := List.filter_cons
  unfold pairs
  rw [first]
  by_cases filter : isFilter name = true <;> simp [filter]

theorem Params.embeddedPoints_cons (name : String) (values : List String) (params : Params) :
    embeddedPoints ((name, values) :: params) =
      (if isReserved name = false ∧ '.' ∈ name.toList then 2 * values.length else 0) +
        embeddedPoints params := by
  unfold embeddedPoints embedded
  rw [List.filterMap_cons]
  by_cases reserved : isReserved name = true
  · simp [reserved]
  · cases cut : Text.cut? '.' name.toList with
    | none =>
      have uncut : Text.cutString? '.' name = none := by rw [Text.cutString?, cut, Option.map_none]
      simp [reserved, uncut, Text.cut?_eq_none_iff.mp cut]
    | some halves =>
      have pointed : '.' ∈ name.toList := by
        rw [(Text.cut?_eq_some cut).1]
        simp
      obtain ⟨parts, hparts⟩ : ∃ parts, Text.cutString? '.' name = some parts :=
        ⟨_, by rw [Text.cutString?, cut, Option.map_some]⟩
      simp [reserved, hparts, pointed]

/-- What is charged for the filters of the table and for those of relations are the points of the
parameters, each of which is a filter of one kind or none. -/
theorem Params.points_eq (params : Params) :
    2 * (params.pairs.map fun pair => Cost.conditions pair.1 pair.2).sum + params.embeddedPoints =
      params.points := by
  induction params with
  | nil => rfl
  | cons entry params ih =>
    obtain ⟨name, values⟩ := entry
    have whole : points ((name, values) :: params) = pointsOf name values + points params := rfl
    rw [whole, ← ih, pairs_cons, embeddedPoints_cons, pointsOf, isFilter]
    by_cases reserved : isReserved name = true
    · simp [reserved]
    · by_cases pointed : '.' ∈ name.toList
      · simp [reserved, pointed]
        omega
      · simp [reserved, pointed, Function.comp_def]
        omega

/-! ## Sizes of pages -/

/-- The largest of the sizes of a page that are given; without any it is 0. -/
structure Params.Largest (params : Params) (rows : Nat) : Prop where
  bound : ∀ name ∈ sizeNames, ∀ n, params.size? name = .ok (some n) → n ≤ rows
  given : rows = 0 ∨ ∃ name ∈ sizeNames, params.size? name = .ok (some rows)

theorem Params.Largest.unique {params others : Params}
    (same : ∀ name ∈ sizeNames, others.size? name = params.size? name) {m n : Nat}
    (h : params.Largest m) (h' : others.Largest n) : m = n := by
  apply Nat.le_antisymm
  · rcases h.given with rfl | ⟨name, hname, given⟩
    · exact Nat.zero_le n
    · exact h'.bound name hname m (by rw [same name hname, given])
  · rcases h'.given with rfl | ⟨name, hname, given⟩
    · exact Nat.zero_le m
    · exact h.bound name hname n (by rw [← same name hname, given])

theorem Cost.pageSize_largest {params : Params} {rows : Nat} (h : pageSize params = .ok rows) :
    params.Largest rows := by
  unfold pageSize at h
  cases read : Params.sizeNames.mapM params.size? with
  | error e =>
    rw [show ["limit", "size", "first", "last"] = Params.sizeNames from rfl, read] at h
    cases h
  | ok sizes =>
    rw [show ["limit", "size", "first", "last"] = Params.sizeNames from rfl, read] at h
    have found : (sizes.filterMap id).foldl max 0 = rows := Except.ok.inj h
    have each := mapM_eq_ok_iff.mp read
    have largest : (0 :: sizes.filterMap id).max? = some rows := by rw [List.max?_cons', found]
    obtain ⟨among, greatest⟩ := List.max?_eq_some_iff.mp largest
    constructor
    · intro name hname n hn
      obtain ⟨size, hsize, same⟩ := exists_of_forall₂ each.flip name hname
      rw [hn] at same
      apply greatest
      simp [Except.ok.inj same, hsize]
    · rcases List.mem_cons.mp among with rfl | among
      · exact .inl rfl
      · obtain ⟨_, hsize, rfl⟩ := List.mem_filterMap.mp among
        obtain ⟨name, hname, given⟩ := exists_of_forall₂ each _ hsize
        exact .inr ⟨name, hname, given⟩

/-! ## More fields and more filters -/

/-- The one list of fields has all fields of the other, in order, and perhaps more at any level. -/
inductive Field.Extends : List Field → List Field → Prop where
  | nil : Extends [] []
  | more {fields others : List Field} (f : Field) (h : Extends fields others) : Extends fields (f :: others)
  | same {fields others : List Field} (f : Field) (h : Extends fields others) :
    Extends (f :: fields) (f :: others)
  | within {fields others children inner : List Field} (name : String) (label : Option String)
    (filters : Entries String) (below : Extends children inner) (h : Extends fields others) :
    Extends (.relation name label children filters :: fields) (.relation name label inner filters :: others)

namespace Field.Extends

variable {fields others : List Field}

theorem depthIn_le (h : Extends fields others) : depthIn fields ≤ depthIn others := by
  induction h with
  | nil => exact Nat.le_refl _
  | more f _ ih => rw [depthIn]; omega
  | same f _ ih => rw [depthIn, depthIn]; omega
  | within name label filters _ _ inner ih => rw [depthIn, depthIn, depth, depth]; omega

theorem sizeIn_le (h : Extends fields others) : sizeIn fields ≤ sizeIn others := by
  induction h with
  | nil => exact Nat.le_refl _
  | more f _ ih => rw [sizeIn]; omega
  | same f _ ih => rw [sizeIn, sizeIn]; omega
  | within name label filters _ _ inner ih => rw [sizeIn, sizeIn, Field.size, Field.size]; omega

theorem pointsIn_le (h : Extends fields others) (level : Nat) :
    pointsIn level fields ≤ pointsIn level others := by
  induction h generalizing level with
  | nil => exact Nat.le_refl _
  | more f _ ih =>
    have := ih level
    rw [pointsIn]
    omega
  | same f _ ih =>
    have := ih level
    rw [pointsIn, pointsIn]
    omega
  | within name label filters _ _ inner ih =>
    have := inner (level + 1)
    have := ih level
    rw [pointsIn, pointsIn, points, points]
    omega

end Field.Extends

namespace Params

variable (params : Params)

/-- The parameters with further ones added in turn. -/
def addAll (more : List (String × String)) : Params :=
  more.foldl (fun params pair => params.add pair.1 pair.2) params

/-- Filters have no part in what is read of other parameters. -/
theorem size?_addAll {more : List (String × String)} (filters : ∀ pair ∈ more, isReserved pair.1 = false)
    {name : String} (reserved : isReserved name = true) :
    (params.addAll more).size? name = params.size? name := by
  have none : more.filter (·.1 = name) = [] := by
    refine List.filter_eq_nil_iff.mpr fun pair hpair => ?_
    have := filters pair hpair
    simp only [decide_eq_true_eq]
    rintro rfl
    simp_all
  unfold size? first?
  rw [addAll, values_foldl_add, none, List.map_nil, List.append_nil]

theorem pointsOf_append (name : String) (values : List String) (value : String) :
    pointsOf name values ≤ pointsOf name (values ++ [value]) := by
  unfold pointsOf
  split_ifs
  · exact Nat.le_refl 0
  · simp only [List.length_append]
    omega
  · simp only [List.map_append, List.sum_append]
    omega

/-- In the place of fewer points, or beside the other entries, an entry takes no points away. -/
theorem points_insert {name : String} {values : List String}
    (h : ∀ old, Entries.get? name params = some old → pointsOf name old ≤ pointsOf name values) :
    points params ≤ points (Entries.insert name values params) := by
  induction params with
  | nil => exact Nat.zero_le _
  | cons entry params ih =>
    obtain ⟨other, old⟩ := entry
    have cons : ∀ name values (rest : Params),
        points ((name, values) :: rest) = pointsOf name values + points rest := fun _ _ _ => rfl
    rw [Entries.insert]
    split_ifs with lower same
    · rw [cons name]
      omega
    · subst same
      have := h old (by rw [Entries.get?, if_pos rfl])
      rw [cons, cons]
      omega
    · have := ih fun old' hold => h old' (by rw [Entries.get?, if_neg same, hold])
      rw [cons, cons]
      omega

theorem points_add (name value : String) : params.points ≤ (params.add name value).points := by
  apply points_insert
  intro old hold
  rw [Params.values, hold]
  exact pointsOf_append name old value

theorem points_addAll (more : List (String × String)) : params.points ≤ (params.addAll more).points := by
  induction more generalizing params with
  | nil => exact Nat.le_refl _
  | cons pair more ih => exact Nat.le_trans (params.points_add pair.1 pair.2) (ih _)

end Params

/-! ## The estimate -/

namespace Cost

/-- The cost is the estimate of a request, counted in words too: each of its numbers is the exact one, or
the largest word if that is less. -/
structure Exact (fields : List Field) (params : Params) (c : Cost) : Prop where
  estimate : analyze fields params = .ok c
  words : ∃ w, WordCost.analyze fields params = .ok w ∧ w.Counts c
  breadth : c.breadth = clamp (Field.sizeIn fields)
  depth : c.depth = Field.depthIn fields
  score : ∃ rows, params.Largest rows ∧
    c.score = clamp (Field.pointsIn 1 fields + params.points + rows / 100)

theorem clamp_mono {m n : Nat} (h : m ≤ n) : clamp m ≤ clamp n := by
  unfold clamp
  omega

/-- The score is the sum of all points. -/
theorem analyze_score {fields : List Field} {params : Params} {rows : Nat} {c : Cost}
    (sized : pageSize params = .ok rows) (h : analyze fields params = .ok c) :
    c.score = clamp (Field.pointsIn 1 fields + params.points + rows / 100) := by
  unfold analyze at h
  rw [sized] at h
  cases h
  have fromFields := addFields_score fields 1 (c := {}) (Nat.zero_le _)
  have fromFilters := addFilters_score params (fromFields ▸ clamp_le _)
  have fromEmbedded := addEmbedded_score params (fromFilters ▸ clamp_le _)
  have start : ({} : Cost).score = 0 := rfl
  have whole := params.points_eq
  rw [charge_score, clamp_add_clamp, fromEmbedded, fromFilters, fromFields, start]
  unfold clamp
  omega

theorem exists_exact {fields : List Field} {params : Params}
    (levels : Field.depthIn fields < Number.maxWord)
    (readable : ∀ name ∈ Params.sizeNames, params.Readable name) : ∃ c, Exact fields params c := by
  obtain ⟨rows, sized⟩ := pageSize_readable readable
  obtain ⟨c, estimate, depth, breadth⟩ := analyze_of_pageSize sized fields
  exact ⟨c, estimate, WordCost.analyze_counts levels estimate, breadth, depth, rows,
    pageSize_largest sized, analyze_score sized estimate⟩

variable {fields : List Field} {params : Params}

/-- The estimate of a request for fields on fewer levels than words count is exact up to the largest word.
More fields, at any level, or more filters never make it lower. -/
theorem analyze_exact (levels : Field.depthIn fields < Number.maxWord)
    (readable : ∀ name ∈ Params.sizeNames, params.Readable name) :
    ∃ c, Exact fields params c ∧ ∀ others more, Field.Extends fields others →
      Field.depthIn others < Number.maxWord → (∀ pair ∈ more, Params.isReserved pair.1 = false) →
      ∃ c', Exact others (params.addAll more) c' ∧
        c.score ≤ c'.score ∧ c.depth ≤ c'.depth ∧ c.breadth ≤ c'.breadth := by
  obtain ⟨c, exact⟩ := exists_exact levels readable
  refine ⟨c, exact, fun others more grown levels' filters => ?_⟩
  have reserved : ∀ name ∈ Params.sizeNames, Params.isReserved name = true := by decide
  have sizes : ∀ name ∈ Params.sizeNames, (params.addAll more).size? name = params.size? name :=
    fun name hname => params.size?_addAll filters (reserved name hname)
  have readable' : ∀ name ∈ Params.sizeNames, (params.addAll more).Readable name := by
    intro name hname
    obtain ⟨n, hn⟩ := readable name hname
    exact ⟨n, by rw [sizes name hname, hn]⟩
  obtain ⟨c', exact'⟩ := exists_exact levels' readable'
  refine ⟨c', exact', ?_, ?_, ?_⟩
  · obtain ⟨rows, largest, score⟩ := exact.score
    obtain ⟨rows', largest', score'⟩ := exact'.score
    have same : rows = rows' := largest.unique sizes largest'
    have points := grown.pointsIn_le 1
    have filterPoints := params.points_addAll more
    rw [score, score', same]
    exact clamp_mono (by omega)
  · rw [exact.depth, exact'.depth]
    exact grown.depthIn_le
  · rw [exact.breadth, exact'.breadth]
    exact clamp_mono grown.sizeIn_le

/-- All columns, and authors with their posts. -/
def authorsOfPosts : List Field :=
  [.wildcard, .relation "authors" none [.column "name", .relation "posts" none [.wildcard] []] []]

/-- A page, a group of two alternatives and a filter of the authors. -/
def authorsOfPostsParams : Params :=
  [("authors.name", ["eq.x"]), ("first", ["250"]), ("or", ["(id.eq.1,id.eq.2)"])]

theorem analyze_exact_authorsOfPosts :
    Field.depthIn authorsOfPosts < Number.maxWord ∧
    (∀ name ∈ Params.sizeNames, authorsOfPostsParams.Readable name) ∧
    ∃ c : Cost, c = { score := 49, depth := 2, breadth := 5 } ∧
      Exact authorsOfPosts authorsOfPostsParams c ∧
      ∃ c', Exact (.column "id" :: authorsOfPosts) (authorsOfPostsParams.addAll [("id", "gt.3")]) c' ∧
        c.score ≤ c'.score ∧ c.depth ≤ c'.depth ∧ c.breadth ≤ c'.breadth := by
  have levels : Field.depthIn authorsOfPosts < Number.maxWord := by decide
  have readable : ∀ name ∈ Params.sizeNames, authorsOfPostsParams.Readable name := by
    simp only [Params.sizeNames, List.forall_mem_cons]
    exact ⟨⟨none, rfl⟩, ⟨none, rfl⟩, ⟨some 250, rfl⟩, ⟨none, rfl⟩, by simp⟩
  obtain ⟨c, exact, grows⟩ := analyze_exact levels readable
  have estimate : analyze authorsOfPosts authorsOfPostsParams =
      .ok { score := 49, depth := 2, breadth := 5 } := rfl
  refine ⟨levels, readable, c, Except.ok.inj (exact.estimate.symm.trans estimate), exact, ?_⟩
  have grown : Field.Extends authorsOfPosts (.column "id" :: authorsOfPosts) :=
    .more _ (.same _ (.same _ .nil))
  exact grows _ _ grown (by decide) (by decide)

end Cost
end TableGateway
