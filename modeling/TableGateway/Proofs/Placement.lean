import TableGateway.Proofs.ParamOrder
import TableGateway.Query.Select

/-!
# Where the conditions on relations land

The name of a parameter with points leads through the relations of a select list, each by its name or its
label, and ends in a column of the last one. Each relation gets the conditions of the parameters that lead to
it and of no others; of several for one column the first in the order of the names counts. Main statement:
`Select.attachFilters_lands`.
-/
namespace TableGateway

/-! ## Entries that are put once -/

namespace Entries

variable {α : Type}

/-- Put a value under a name that has none. -/
def insertNew (key : String) (value : α) (entries : Entries α) : Entries α :=
  if entries.has key then entries else entries.insert key value

theorem get?_insertNew (key other : String) (value : α) (entries : Entries α) :
    get? other (insertNew key value entries) =
      (get? other entries).or (if key = other then some value else none) := by
  unfold insertNew has
  by_cases same : key = other
  · subst same
    cases found : get? key entries with
    | some v => simp [found]
    | none => simp [get?_insert]
  · split <;> simp [get?_insert, same]

end Entries

namespace Params

/-- A parameter has a value. -/
theorem ofPairs_ne_nil (pairs : List (String × String)) : ∀ entry ∈ ofPairs pairs, entry.2 ≠ [] := by
  suffices kept : ∀ params : Params, (∀ entry ∈ params, entry.2 ≠ []) →
      ∀ entry ∈ pairs.foldl (fun params pair => add params pair.1 pair.2) params, entry.2 ≠ [] from
    kept [] (by simp)
  induction pairs with
  | nil => exact fun params filled => filled
  | cons pair pairs ih =>
    refine fun params filled => ih _ fun entry hentry => ?_
    rcases Entries.mem_insert hentry with rfl | hentry
    · simp
    · exact filled entry hentry

end Params

namespace Select

/-! ## Forests -/

mutual

def unfiltered : Field → Field
  | .relation name label children _ => .relation name label (unfilteredAll children) []
  | f => f

def unfilteredAll : List Field → List Field
  | [] => []
  | f :: rest => unfiltered f :: unfilteredAll rest

end

mutual

/-- The fields within the field can be told apart. -/
def DistinctWithin : Field → Prop
  | .relation _ _ children _ => Distinct children
  | _ => True

/-- No text is a name or a label of two relations of the list, nor of a list within. -/
def Distinct : List Field → Prop
  | [] => True
  | f :: rest =>
    DistinctWithin f ∧ (∀ g ∈ rest, ∀ name, isNamed name f = true → isNamed name g = false) ∧ Distinct rest

end

/-- The names lead from relation to relation, and the last one to the field. -/
inductive Reaches : List Field → List String → Field → Prop where
  | last {fields : List Field} {name : String} {f : Field} (h : f ∈ fields)
    (named : isNamed name f = true) : Reaches fields [name] f
  | further {fields : List Field} {name : String} {f : Field} {names : List String} {g : Field}
    (h : f ∈ fields) (named : isNamed name f = true) (rest : Reaches f.children names g) :
    Reaches fields (name :: names) g

/-- The two lists of names lead through the same relations. -/
def sameWay : List Field → List String → List String → Bool
  | _, [], [] => true
  | fields, name :: names, other :: others =>
    fields.any fun f => isNamed name f && isNamed other f && sameWay f.children names others
  | _, _, _ => false

/-- The parameter leads to the relation to which the names lead, and to the column of it. -/
def Aims (fields : List Field) (names : List String) (column key : String) : Prop :=
  Params.isReserved key = false ∧
    ∃ others, segments key = others ++ [column] ∧ sameWay fields names others = true

variable {fields : List Field} {f g : Field} {name column value : String} {names path : List String}

/-! ### What conditions do not change -/

@[simp]
theorem children_unfiltered (f : Field) : (unfiltered f).children = unfilteredAll f.children := by
  cases f <;> rfl

@[simp]
theorem isNamed_unfiltered (name : String) (f : Field) : isNamed name (unfiltered f) = isNamed name f := by
  cases f <;> rfl

theorem unfilteredAll_eq_map (fields : List Field) : unfilteredAll fields = fields.map unfiltered := by
  induction fields with
  | nil => rfl
  | cons f rest ih => rw [unfilteredAll, ih, List.map_cons]

theorem sameWay_unfiltered (fields : List Field) (names others : List String) :
    sameWay (unfilteredAll fields) names others = sameWay fields names others := by
  induction names generalizing fields others with
  | nil => cases others <;> rfl
  | cons name names ih =>
    cases others with
    | nil => rfl
    | cons other others =>
      rw [sameWay, sameWay, unfilteredAll_eq_map, List.any_map]
      simp only [Function.comp_def, isNamed_unfiltered, children_unfiltered, ih]

mutual

theorem distinctWithin_unfiltered : ∀ f : Field, DistinctWithin (unfiltered f) ↔ DistinctWithin f
  | .relation _ _ children _ => distinct_unfilteredAll children
  | .wildcard | .column _ => Iff.rfl

theorem distinct_unfilteredAll : ∀ fields : List Field, Distinct (unfilteredAll fields) ↔ Distinct fields
  | [] => Iff.rfl
  | f :: rest => by
    rw [unfilteredAll, Distinct, Distinct, distinctWithin_unfiltered f, distinct_unfilteredAll rest,
      unfilteredAll_eq_map]
    simp only [List.forall_mem_map, isNamed_unfiltered]

end

mutual

theorem unfiltered_attachTo (path : List String) (column value : String) : ∀ f : Field,
    unfiltered (attachTo path column value f) = unfiltered f
  | .relation name label children filters => by
    cases path with
    | nil => rfl
    | cons next path =>
      rw [attachTo, unfiltered, unfilteredAll_attach, unfiltered]
      simp
  | .wildcard | .column _ => rfl

theorem unfilteredAll_attach (path : List String) (column value : String) : ∀ fields : List Field,
    unfilteredAll (attach path column value fields) = unfilteredAll fields
  | [] => by simp [attach]
  | f :: rest => by
    cases path with
    | nil => rfl
    | cons name path =>
      rw [attach]
      split
      · rw [unfilteredAll, unfiltered_attachTo, unfilteredAll]
      · rw [unfilteredAll, unfilteredAll_attach, unfilteredAll]

end

/-- Without their conditions the same fields are left, so they can be told apart as well. -/
theorem distinct_congr {others : List Field} (same : unfilteredAll others = unfilteredAll fields)
    (distinct : Distinct fields) : Distinct others :=
  (distinct_unfilteredAll others).mp (same ▸ (distinct_unfilteredAll fields).mpr distinct)

theorem aims_congr {others : List Field} (same : unfilteredAll others = unfilteredAll fields)
    {key : String} : Aims others names column key ↔ Aims fields names column key := by
  unfold Aims
  simp only [← sameWay_unfiltered others, same, sameWay_unfiltered]

/-! ### Ways through fields that can be told apart -/

theorem Distinct.within {fields : List Field} (distinct : Distinct fields) {f : Field} (h : f ∈ fields) :
    Distinct f.children := by
  induction fields with
  | nil => cases h
  | cons first rest ih =>
    rw [Distinct] at distinct
    rcases List.mem_cons.mp h with rfl | h
    · cases f with
      | relation name label children filters => exact distinct.1
      | wildcard | column _ => exact trivial
    · exact ih distinct.2.2 h

/-- A name leads to one field only. -/
theorem Distinct.eq {fields : List Field} (distinct : Distinct fields) {f g : Field} (hf : f ∈ fields)
    (hg : g ∈ fields) (namedf : isNamed name f = true) (namedg : isNamed name g = true) : f = g := by
  induction fields with
  | nil => cases hf
  | cons first rest ih =>
    rw [Distinct] at distinct
    obtain ⟨-, apart, distinct⟩ := distinct
    rcases List.mem_cons.mp hf with rfl | inf <;> rcases List.mem_cons.mp hg with rfl | ing
    · rfl
    · exact absurd namedg (by simp [apart g ing name namedf])
    · exact absurd namedf (by simp [apart f inf name namedg])
    · exact ih distinct inf ing

theorem sameWay_cons (distinct : Distinct fields) (h : f ∈ fields) (named : isNamed name f = true)
    {next : String} : sameWay fields (name :: names) (next :: path) =
      (isNamed next f && sameWay f.children names path) := by
  rw [sameWay, Bool.eq_iff_iff, List.any_eq_true]
  constructor
  · rintro ⟨g, hg, both⟩
    simp only [Bool.and_eq_true] at both
    rw [← distinct.eq hg h both.1.1 named]
    simpa using ⟨both.1.2, both.2⟩
  · exact fun both => ⟨f, h, by simpa [named] using both⟩

theorem Reaches.sameWay_self (h : Reaches fields names f) : sameWay fields names names = true := by
  induction h with
  | last h named => exact List.any_eq_true.mpr ⟨_, h, by simp [named, sameWay]⟩
  | further h named _ ih => exact List.any_eq_true.mpr ⟨_, h, by simp [named, ih]⟩

theorem Reaches.mono {others : List Field} (h : Reaches fields names f) (within : fields ⊆ others) :
    Reaches others names f := by
  cases h with
  | last h named => exact .last (within h) named
  | further h named rest => exact .further (within h) named rest

theorem Reaches.ne_nil (h : Reaches fields names f) : names ≠ [] := by
  cases h <;> exact List.cons_ne_nil _ _

/-- A relation that is reached without any conditions is reached with them. -/
theorem Reaches.of_unfiltered {bare : List Field} (h : Reaches bare names f) :
    ∀ {fields : List Field}, unfilteredAll fields = bare → ∃ g, Reaches fields names g ∧ unfiltered g = f := by
  induction h with
  | last h named =>
    rintro fields rfl
    rw [unfilteredAll_eq_map] at h
    obtain ⟨g, hg, rfl⟩ := List.mem_map.mp h
    rw [isNamed_unfiltered] at named
    exact ⟨g, .last hg named, rfl⟩
  | further h named _ ih =>
    rintro fields rfl
    rw [unfilteredAll_eq_map] at h
    obtain ⟨f, hf, rfl⟩ := List.mem_map.mp h
    rw [isNamed_unfiltered] at named
    obtain ⟨g, reach, same⟩ := ih (children_unfiltered f).symm
    exact ⟨g, .further hf named reach, same⟩

/-! ### One condition -/

@[simp]
theorem attach_nil (column value : String) (fields : List Field) : attach [] column value fields = fields := by
  cases fields <;> simp [attach]

@[simp]
theorem children_attachTo (path : List String) (column value : String) (f : Field) :
    (attachTo path column value f).children = attach path column value f.children := by
  cases f with
  | relation name label children filters => cases path <;> simp [attachTo, Field.children]
  | wildcard | column _ => simp [attachTo, Field.children, attach]

@[simp]
theorem isNamed_attachTo (path : List String) (column value : String) (f : Field) :
    isNamed name (attachTo path column value f) = isNamed name f := by
  rw [← isNamed_unfiltered, unfiltered_attachTo, isNamed_unfiltered]

theorem filters_attachTo (path : List String) (column value : String) (named : isNamed name f = true) :
    (attachTo path column value f).filters =
      if path = [] then f.filters.insertNew column value else f.filters := by
  cases f with
  | relation name label children filters =>
    cases path with
    | nil =>
      rw [attachTo, if_pos rfl]
      rfl
    | cons next path =>
      rw [attachTo, if_neg (List.cons_ne_nil next path)]
      · rfl
      · exact List.cons_ne_nil next path
  | wildcard | column _ => simp [isNamed, Field.isRelation] at named

/-- The first field of a name is the only one. -/
theorem attach_eq_map {fields : List Field} (distinct : Distinct fields) :
    attach (name :: path) column value fields =
      fields.map fun f => if isNamed name f then attachTo path column value f else f := by
  induction fields with
  | nil => simp [attach]
  | cons f rest ih =>
    rw [Distinct] at distinct
    obtain ⟨-, apart, distinct⟩ := distinct
    rw [attach, List.map_cons]
    by_cases named : isNamed name f = true
    · rw [if_pos named, if_pos named]
      have others : rest.map (fun g => if isNamed name g then attachTo path column value g else g) =
          rest.map fun g => g :=
        List.map_congr_left fun g hg => if_neg (by simp [apart g hg name named])
      rw [others, List.map_id']
    · rw [if_neg named, if_neg named, ih distinct]

/-- A condition is put at the relation to which the path leads, if none is there for the column, and at no
other one. -/
theorem reaches_attach (distinct : Distinct fields) (h : Reaches (attach path column value fields) names g) :
    ∃ f, Reaches fields names f ∧ g.filters =
      if sameWay fields names path then f.filters.insertNew column value else f.filters := by
  induction names generalizing fields path with
  | nil => exact absurd rfl h.ne_nil
  | cons name names ih =>
    cases path with
    | nil =>
      rw [attach_nil] at h
      exact ⟨g, h, by simp [sameWay]⟩
    | cons next path =>
      rw [attach_eq_map distinct] at h
      cases h with
      | last h named =>
        obtain ⟨f, hf, rfl⟩ := List.mem_map.mp h
        by_cases aimed : isNamed next f = true
        · rw [if_pos aimed, isNamed_attachTo] at named
          refine ⟨f, .last hf named, ?_⟩
          rw [if_pos aimed, filters_attachTo path column value named, sameWay_cons distinct hf named]
          cases path <;> simp [sameWay, aimed]
        · rw [if_neg aimed] at named
          refine ⟨f, .last hf named, ?_⟩
          rw [if_neg aimed, sameWay_cons distinct hf named]
          simp [aimed]
      | further h named within =>
        obtain ⟨f, hf, rfl⟩ := List.mem_map.mp h
        by_cases aimed : isNamed next f = true
        · rw [if_pos aimed, isNamed_attachTo] at named
          rw [if_pos aimed, children_attachTo] at within
          obtain ⟨inner, reach, filters⟩ := ih (distinct.within hf) within
          refine ⟨inner, .further hf named reach, ?_⟩
          rw [filters, sameWay_cons distinct hf named, aimed, Bool.true_and]
        · rw [if_neg aimed] at named within
          refine ⟨g, .further hf named within, ?_⟩
          rw [sameWay_cons distinct hf named]
          simp [aimed]

mutual

/-- A condition on a column that has one changes nothing. -/
theorem attach_eq_self (path : List String) (column value : String) : ∀ {fields : List Field},
    (∀ f, Reaches fields path f → f.filters.has column = true) → attach path column value fields = fields
  | [], _ => by simp [attach]
  | f :: rest, set => by
    cases path with
    | nil => rw [attach_nil]
    | cons name path =>
      rw [attach]
      split
      · rename_i named
        rw [attachTo_eq_self path column value f]
        · rintro rfl
          exact set f (.last List.mem_cons_self named)
        · exact fun g reach => set g (.further List.mem_cons_self named reach)
      · rw [attach_eq_self (name :: path) column value]
        exact fun g reach => set g (reach.mono (List.subset_cons_self f rest))

theorem attachTo_eq_self (path : List String) (column value : String) : ∀ f : Field,
    (path = [] → f.filters.has column = true) →
    (∀ g, Reaches f.children path g → g.filters.has column = true) → attachTo path column value f = f
  | .relation name label children filters, here, within => by
    cases path with
    | nil =>
      have set : filters.has column = true := here rfl
      rw [attachTo, if_pos set]
    | cons next path =>
      have same : attach (next :: path) column value children = children :=
        attach_eq_self (next :: path) column value within
      rw [attachTo, same]
      exact List.cons_ne_nil next path
  | .wildcard, _, _ | .column _, _, _ => by simp [attachTo]

end

/-! ### All conditions -/

theorem segments_ne_nil (key : String) : segments key ≠ [] := by
  simp [segments, List.splitOn_ne_nil]

theorem segments_eq (key : String) : segments key =
    match Text.cutString? '.' key with
    | some (first, rest) => first :: segments rest
    | none => [key] := by
  unfold Text.cutString? segments
  cases cut : Text.cut? '.' key.toList with
  | none => simp [List.splitOn_eq_singleton (Text.cut?_eq_none_iff.mp cut)]
  | some parts =>
    obtain ⟨split, apart⟩ := Text.cut?_eq_some cut
    simp [split, List.splitOn_append_cons_self_of_not_mem apart]

/-- Put the first value of a parameter where its name leads. -/
def place (fields : List Field) (param : String × List String) : List Field :=
  match Params.isReserved param.1, param.2 with
  | false, value :: _ => attach (segments param.1).dropLast ((segments param.1).getLastD "") value fields
  | _, _ => fields

/-- A name without points leads to no relation, so it need not be left out. -/
theorem attachFilters_eq_foldl (fields : List Field) (params : Params) :
    attachFilters fields params = params.foldl place fields := by
  unfold attachFilters Params.embedded
  rw [List.foldl_filterMap]
  congr
  funext fields (key, values)
  have names := segments_eq key
  cases reserved : Params.isReserved key with
  | true => simp [place, reserved]
  | false =>
    cases cut : Text.cutString? '.' key <;> cases values <;> simp [place, reserved, names, cut]

theorem aims_iff {key : String} : Aims fields names column key ↔
    Params.isReserved key = false ∧ (segments key).getLastD "" = column ∧
      sameWay fields names (segments key).dropLast = true := by
  refine and_congr_right fun _ => ⟨?_, fun ⟨last, way⟩ => ⟨_, ?_, way⟩⟩
  · rintro ⟨others, split, way⟩
    simp [split, way]
  · rw [← last, List.getLastD_eq_getLast?, List.getLast?_eq_some_getLast (segments_ne_nil key)]
    exact (List.dropLast_concat_getLast _).symm

instance (fields : List Field) (names : List String) (column key : String) :
    Decidable (Aims fields names column key) :=
  decidable_of_iff _ aims_iff.symm

/-- What the parameter puts at the relation to which the names lead, for the column. -/
def aimed (fields : List Field) (names : List String) (column : String) (param : String × List String) :
    Option String :=
  if Aims fields names column param.1 then param.2.head? else none

theorem unfilteredAll_place (fields : List Field) (param : String × List String) :
    unfilteredAll (place fields param) = unfilteredAll fields := by
  unfold place
  split
  · exact unfilteredAll_attach ..
  · rfl

/-- A parameter puts its value where it leads, if none is there for its column. -/
theorem reaches_place (distinct : Distinct fields) {param : String × List String}
    (h : Reaches (place fields param) names g) : ∃ f, Reaches fields names f ∧ ∀ column,
      g.filters.get? column = (f.filters.get? column).or (aimed fields names column param) := by
  obtain ⟨key, values⟩ := param
  unfold place at h
  split at h
  · rename_i value rest free filled
    obtain rfl : values = value :: rest := filled
    obtain ⟨f, reach, filters⟩ := reaches_attach distinct h
    refine ⟨f, reach, fun column => ?_⟩
    simp only [aimed, aims_iff, free, List.head?_cons, true_and]
    rw [filters]
    by_cases way : sameWay fields names (segments key).dropLast = true
    · simp [way, Entries.get?_insertNew]
    · simp [way]
  · rename_i unplaced
    refine ⟨g, h, fun column => ?_⟩
    have none : aimed fields names column (key, values) = none := by
      unfold aimed
      split
      · rename_i aims
        cases values with
        | nil => rfl
        | cons value rest => exact (unplaced value rest aims.1 rfl).elim
      · rfl
    rw [none, Option.or_none]

/-- Of several values for one place the first counts. -/
theorem reaches_foldl (distinct : Distinct fields) {params : Params}
    (h : Reaches (params.foldl place fields) names g) : ∃ f, Reaches fields names f ∧ ∀ column,
      g.filters.get? column =
        (f.filters.get? column).or (params.findSome? (aimed fields names column)) := by
  induction params generalizing fields with
  | nil => exact ⟨g, h, by simp⟩
  | cons param params ih =>
    have same := unfilteredAll_place fields param
    obtain ⟨between, reach, later⟩ := ih (distinct_congr same distinct) h
    obtain ⟨f, reach, first⟩ := reaches_place distinct reach
    refine ⟨f, reach, fun column => ?_⟩
    have alike : aimed (place fields param) names column = aimed fields names column := by
      funext param
      simp only [aimed, aims_congr same]
    rw [later, first, alike, Option.or_assoc, List.findSome?_cons]
    cases aimed fields names column param <;> rfl

theorem unfilteredAll_foldl (fields : List Field) (params : Params) :
    unfilteredAll (params.foldl place fields) = unfilteredAll fields := by
  induction params generalizing fields with
  | nil => rfl
  | cons param params ih => rw [List.foldl_cons, ih, unfilteredAll_place]

/-- A parameter whose conditions are all there changes nothing. -/
theorem place_eq_self {param : String × List String} (set : ∀ names column f, Reaches fields names f →
    Aims fields names column param.1 → f.filters.has column = true) : place fields param = fields := by
  unfold place
  split
  · rename_i free _
    exact attach_eq_self _ _ _ fun f reach => set _ _ f reach (aims_iff.mpr ⟨free, rfl, reach.sameWay_self⟩)
  · rfl

/-! ### Parameters in the order of their names -/

section

variable {params : Params} (filled : ∀ entry ∈ params, entry.2 ≠ [])
include filled

theorem isSome_aimed {param : String × List String} (h : param ∈ params) :
    (aimed fields names column param).isSome = true ↔ Aims fields names column param.1 := by
  unfold aimed
  split
  · simp [*, filled param h]
  · simp [*]

theorem isSome_findSome?_aimed : (params.findSome? (aimed fields names column)).isSome = true ↔
    ∃ key ∈ Entries.keys params, Aims fields names column key := by
  rw [List.findSome?_isSome_iff]
  constructor
  · rintro ⟨param, h, some⟩
    exact ⟨param.1, List.mem_map_of_mem h, (isSome_aimed filled h).mp some⟩
  · rintro ⟨key, h, aims⟩
    obtain ⟨param, hparam, rfl⟩ := List.mem_map.mp h
    exact ⟨param, hparam, (isSome_aimed filled hparam).mpr aims⟩

/-- The first value of the first parameter that leads there. -/
theorem findSome?_aimed_eq_some_iff (rising : Entries.Rising params) :
    params.findSome? (aimed fields names column) = some value ↔
      ∃ key values, (key, value :: values) ∈ params ∧ Aims fields names column key ∧
        ∀ other ∈ Entries.keys params, Aims fields names column other → key ≤ other := by
  rw [List.findSome?_eq_some_iff]
  constructor
  · rintro ⟨before, ⟨key, values⟩, behind, rfl, some, none⟩
    have aims := (isSome_aimed filled (by simp)).mp (Option.isSome_of_eq_some some)
    rw [aimed, if_pos aims, List.head?_eq_some_iff] at some
    obtain ⟨values, rfl⟩ := some
    refine ⟨key, values, by simp, aims, fun other h aimsOther => ?_⟩
    obtain ⟨param, hparam, rfl⟩ := List.mem_map.mp h
    rcases List.mem_append.mp hparam with earlier | later
    · have led := (isSome_aimed filled hparam).mpr aimsOther
      simp [none param earlier] at led
    · rcases List.mem_cons.mp later with rfl | later
      · exact String.le_refl _
      · have greater := (List.pairwise_cons.mp (List.pairwise_append.mp rising).2.1).1 param later
        exact String.not_lt.mp (String.lt_asymm greater)
  · rintro ⟨key, values, h, aims, least⟩
    obtain ⟨before, behind, rfl⟩ := List.append_of_mem h
    refine ⟨before, _, behind, rfl, by simp [aimed, aims], fun param earlier => ?_⟩
    have lower : param.1 < key := (List.pairwise_append.mp rising).2.2 param earlier _ List.mem_cons_self
    have named : param.1 ∈ Entries.keys (before ++ (key, value :: values) :: behind) :=
      List.mem_map_of_mem (List.mem_append_left _ earlier)
    exact if_neg fun aimsOther => least param.1 named aimsOther lower

end

/-- Without conditions in the fields there are none in a field within. -/
theorem Reaches.filters_eq_nil (h : Reaches fields names f) (unset : unfilteredAll fields = fields) :
    f.filters = [] := by
  have bare : ∀ {fields : List Field}, unfilteredAll fields = fields → ∀ f ∈ fields, unfiltered f = f := by
    intro fields unset f h
    have mapped : fields.map unfiltered = fields.map id := by rw [← unfilteredAll_eq_map, unset, List.map_id]
    exact List.map_inj_left.mp mapped f h
  induction h with
  | @last fields name f h named =>
    rw [← bare unset f h]
    cases f with
    | relation name label children filters => rfl
    | wildcard | column _ => rfl
  | @further fields name f names g h named within ih =>
    exact ih (by rw [← children_unfiltered, bare unset f h])

/-- The conditions on relations change nothing else of the fields. Each relation has the conditions of the
parameters that lead to it, of several for one column the first value of the first parameter, and to put them
once more changes nothing. -/
theorem attachFilters_lands (unset : unfilteredAll fields = fields) (distinct : Distinct fields)
    (pairs : List (String × String)) :
    let params := Params.ofPairs pairs
    let placed := attachFilters fields params
    unfilteredAll placed = fields ∧
    (∀ names f, Reaches placed names f → ∀ column,
      (f.filters.has column = true ↔ ∃ key ∈ Entries.keys params, Aims fields names column key) ∧
      ∀ value, f.filters.get? column = some value ↔
        ∃ key values, (key, value :: values) ∈ params ∧ Aims fields names column key ∧
          ∀ other ∈ Entries.keys params, Aims fields names column other → key ≤ other) ∧
    attachFilters placed params = placed := by
  intro params placed
  have filled := Params.ofPairs_ne_nil pairs
  have run : placed = params.foldl place fields := attachFilters_eq_foldl fields params
  have erased : unfilteredAll placed = unfilteredAll fields := run ▸ unfilteredAll_foldl fields params
  have found : ∀ {names f}, Reaches placed names f → ∀ column,
      f.filters.get? column = params.findSome? (aimed fields names column) := by
    intro names f reach column
    obtain ⟨bare, reach, filters⟩ := reaches_foldl distinct (run ▸ reach)
    rw [filters, reach.filters_eq_nil unset]
    rfl
  have has : ∀ {names f}, Reaches placed names f → ∀ column,
      (f.filters.has column = true ↔ ∃ key ∈ Entries.keys params, Aims fields names column key) := by
    intro names f reach column
    rw [Entries.has, found reach, isSome_findSome?_aimed filled]
  refine ⟨erased.trans unset, fun names f reach column => ⟨has reach column, fun value => ?_⟩, ?_⟩
  · rw [found reach, findSome?_aimed_eq_some_iff filled (Params.ofPairs_rising pairs)]
  · rw [attachFilters_eq_foldl]
    suffices kept : ∀ some ⊆ params, some.foldl place placed = placed from kept params (List.Subset.refl _)
    intro some within
    induction some with
    | nil => rfl
    | cons param some ih =>
      obtain ⟨h, within⟩ := List.cons_subset.mp within
      rw [List.foldl_cons, place_eq_self, ih within]
      intro names column f reach aims
      exact (has reach column).mpr ⟨param.1, List.mem_map_of_mem h, (aims_congr erased).mp aims⟩

/-- The label and the name lead to the same relation, and of their values the one under the lower name
counts. -/
theorem attachFilters_lands_users :
    let users : Field := .relation "users" (some "user") [.wildcard] []
    let fields : List Field := [.column "id", .relation "comments" none [.column "id", users] []]
    let params := Params.ofPairs [("comments.users.name", "eq.Bo"), ("comments.user.name", "eq.Ann"),
      ("comments.user.name", "eq.Eve"), ("limit", "5")]
    let placed := attachFilters fields params
    unfilteredAll fields = fields ∧ Distinct fields ∧ attachFilters placed params = placed ∧
      (∃ f, Reaches placed ["comments", "users"] f ∧ unfiltered f = users) ∧
      ∀ f, Reaches placed ["comments", "users"] f →
        f.filters.get? "name" = some "eq.Ann" ∧ f.filters.has "id" = false := by
  intro users fields params placed
  have unset : unfilteredAll fields = fields := by
    simp [fields, users, unfilteredAll, unfiltered]
  have distinct : Distinct fields := by
    simp [fields, users, Distinct, DistinctWithin, isNamed, Field.isRelation]
  have reached : Reaches fields ["comments", "users"] users :=
    .further (f := .relation "comments" none [.column "id", users] []) (by simp [fields]) rfl
      (.last (by simp [Field.children]) rfl)
  obtain ⟨erased, lands, again⟩ := attachFilters_lands unset distinct [("comments.users.name", "eq.Bo"),
    ("comments.user.name", "eq.Ann"), ("comments.user.name", "eq.Eve"), ("limit", "5")]
  refine ⟨unset, distinct, again, reached.of_unfiltered erased, fun f reach => ⟨?_, ?_⟩⟩
  · exact ((lands _ f reach "name").2 "eq.Ann").mpr
      ⟨"comments.user.name", ["eq.Eve"], by decide +kernel, by decide +kernel, by decide +kernel⟩
  · rw [Bool.eq_false_iff, ne_eq, (lands _ f reach "id").1]
    decide +kernel

end Select
end TableGateway
