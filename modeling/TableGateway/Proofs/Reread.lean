import TableGateway.Proofs.ComplexityBound
import TableGateway.Proofs.KeyText
import TableGateway.Proofs.ReadBack
import TableGateway.Proofs.Submission
import TableGateway.Proofs.Window

/-!
# The row that was changed

A database that does not return rows is asked for the row that it has changed. The change may have moved the
row to another key: in each column of the primary key it has the value that the record gives, and where the
record gives none, that of the part of the old key. The row is read by one text, though: by the key of the
record if that has a part for every column, and else by the old key. So another row is read if a record
changes some columns of a key only. Main statement: `Operation.update_rereads`.
-/
namespace TableGateway

variable {σ δ α β : Type}

/-! ## Parts of keys -/

theorem exists_mapM {f : α → Option β} : ∀ {l : List α}, (∀ a ∈ l, ∃ b, f a = some b) →
    ∃ bs, l.mapM f = some bs
  | [], _ => ⟨[], rfl⟩
  | a :: l, h => by
    obtain ⟨b, hb⟩ := h a (by simp)
    obtain ⟨bs, hbs⟩ := exists_mapM (l := l) fun a ha => h a (by simp [ha])
    exact ⟨b :: bs, by simp [hb, hbs]⟩

theorem forall₂_of_mapM {f : α → Option β} : ∀ {l : List α} {bs : List β},
    l.mapM f = some bs → List.Forall₂ (fun a b => f a = some b) l bs
  | [], bs, h => by
    cases h
    exact .nil
  | a :: l, bs, h => by
    simp only [List.mapM_cons, Option.bind_eq_bind, Option.bind_eq_some_iff] at h
    obtain ⟨b, hb, bs, hbs, same⟩ := h
    cases same
    exact .cons hb (forall₂_of_mapM hbs)

namespace Key

variable {table : Table} {key own : String} {record : Record}

/-- The key of a record is made of the texts of its values for the key columns. -/
theorem ofRecord?_eq_some (h : ofRecord? table record = some own) :
    ∃ texts, List.Forall₂ (fun column text =>
        (Entries.get? column.name record).bind partOf? = some text) table.key texts ∧
      own = encode texts := by
  unfold ofRecord? ofParts? at h
  split at h
  · cases h
  · rename_i texts _ found
    cases h
    exact ⟨texts, forall₂_of_mapM found, rfl⟩
  · cases h

/-- A record with a text for each key column has a key. -/
theorem ofRecord?_ne_none (keyed : table.key ≠ []) (texts : ∀ column ∈ table.key,
    ∃ text, (Entries.get? column.name record).bind partOf? = some text) :
    ofRecord? table record ≠ none := by
  obtain ⟨texts, found⟩ := exists_mapM texts
  have width := (forall₂_of_mapM found).length_eq
  unfold ofRecord? ofParts?
  rw [found]
  cases texts with
  | nil => exact absurd (List.length_eq_zero_iff.mp width) keyed
  | cons text texts => simp

end Key

/-! ## Values of keys -/

namespace Lookup

variable {t u : σ}

/-- A steady lookup has the one value that it may give, or the one fault. -/
theorem Steady.ends_has {x : Lookup σ α} (h : x.Steady) :
    x.Ends (fun a => x.Has (.ok a)) (fun e => x.Has (.error e)) := by
  intro t
  cases once : (x.run t).1 with
  | ok a => exact .ok (h.has once)
  | error e => exact .error (h.has once)

/-- What is looked up for each item is there if it is there for all of them. -/
theorem has_mapM {f : α → Lookup σ β} : ∀ {l : List α}, (∀ a ∈ l, ∃ b, (f a).Has (.ok b)) →
    ∃ bs, (l.mapM f).Has (.ok bs) ∧ List.Forall₂ (fun a b => (f a).Has (.ok b)) l bs
  | [], _ => ⟨[], by rw [List.mapM_nil]; exact has_pure [], .nil⟩
  | a :: l, h => by
    obtain ⟨b, hb⟩ := h a (by simp)
    obtain ⟨bs, hbs, each⟩ := has_mapM (l := l) fun a ha => h a (by simp [ha])
    refine ⟨b :: bs, ?_, .cons hb each⟩
    rw [List.mapM_cons]
    exact .bind hb (.bind hbs (has_pure _))

/-- Two steady lookups have the same values for each item if they have the same for all of them. -/
theorem forall₂_eq_iff [Nonempty σ] {f g : α → Lookup σ β} {l : List α} {bs cs : List β}
    (hb : List.Forall₂ (fun a b => (f a).Has (.ok b)) l bs)
    (hc : List.Forall₂ (fun a c => (g a).Has (.ok c)) l cs) :
    bs = cs ↔ ∀ a ∈ l, ∃ b, (f a).Has (.ok b) ∧ (g a).Has (.ok b) := by
  obtain ⟨t⟩ := ‹Nonempty σ›
  induction hb generalizing cs with
  | nil =>
    cases hc
    simp
  | cons hb _ ih =>
    cases hc with
    | cons hc rest =>
      rw [List.cons.injEq, List.forall_mem_cons, ih rest]
      refine and_congr_left fun _ => ⟨?_, ?_⟩
      · rintro rfl
        exact ⟨_, hb, hc⟩
      · rintro ⟨d, hfd, hgd⟩
        cases (hb t).symm.trans (hfd t)
        cases (hc t).symm.trans (hgd t)
        rfl

end Lookup

namespace Key

variable (source : SchemaSource σ) (table : Table)

/-- The key by which a row is read again after a record was written to it. -/
def again (key : String) (record : Record) : String := (ofRecord? table record).getD key

/-- The value that the row with a key has in a column, after a record was written to it. -/
def valueAfter (record : Record) (pair : Column × String) : Lookup σ Cell :=
  match Entries.get? pair.1.name record with
  | some v => Convert.parameter source pair.1.type v
  | none => Convert.ofText source pair.1.type pair.2

/-- The values of the primary key of the row with a key, after a record was written to it. -/
def valuesAfter (key : String) (record : Record) : Lookup σ (List Cell) :=
  (table.key.zip (parts table key)).mapM (valueAfter source record)

/-- The text is a key of the table, and each of its parts a value of its column. -/
structure Legible (key : String) : Prop where
  fits : Fits table key
  values : ∀ pair ∈ table.key.zip (parts table key), ∃ c,
    (Convert.ofText source pair.1.type pair.2).Has (.ok c)

/-- The text is converted to the same value of the type as the document. -/
def Same (type : ColumnType) (text : String) (v : Json) : Prop :=
  ∃ c, (Convert.ofText source type text).Has (.ok c) ∧ (Convert.parameter source type v).Has (.ok c)

/-- The text by which the row with a key is read again, after a record was written to it, is its new key. -/
structure Follows (key : String) (record : Record) : Prop where
  /-- If the record does not have a whole key, what it has of one is as before. -/
  kept : ofRecord? table record = none → ∀ pair ∈ table.key.zip (parts table key), ∀ v,
    Entries.get? pair.1.name record = some v → Same source pair.1.type pair.2 v
  /-- If it has, the texts of its values stand for them. -/
  own : ofRecord? table record ≠ none → ∀ column ∈ table.key, ∀ v text,
    Entries.get? column.name record = some v → partOf? v = some text → Same source column.type text v

variable {source table} {key own : String} {record : Record} {t u : σ}

/-- A text that chooses rows is legible as a key, and they are those with the values of its parts. -/
theorem legible_of_gives (steady : source.current.Steady) (regular : table.Regular) {w : Where}
    (h : (Build.keyFilter source table key).Gives t w u) :
    Legible source table key ∧ ∃ values, w = Where.equals table.key values ∧
      values.length = table.key.length ∧
      List.Forall₂ (fun pair c => (Convert.ofText source pair.1.type pair.2).Has (.ok c))
        (table.key.zip (parts table key)) values := by
  obtain ⟨values, hvalues, width, rfl⟩ := Build.keyFilter_gives regular h
  have each : List.Forall₂ (fun pair c => (Convert.ofText source pair.1.type pair.2).Has (.ok c))
      (table.key.zip (parts table key)) values :=
    Lookup.Ends.of_gives (.mapM fun pair _ => (Convert.ofText_steady steady _ _).ends_has.values) hvalues
  refine ⟨⟨Build.keyFilter_fits h, fun pair hpair => ?_⟩, values, rfl, width, each⟩
  obtain ⟨c, -, hc⟩ := exists_of_forall₂ each.flip pair hpair
  exact ⟨c, hc⟩

/-- A legible text chooses rows. -/
theorem Legible.exists_filter (h : Legible source table key) (regular : table.Regular) :
    ∃ w, (Build.keyFilter source table key).Has (.ok w) := by
  obtain ⟨w, hw, -⟩ := Lookup.has_mapM
    (f := fun pair : Column × String => Build.keyCondition source table pair.1 pair.2)
    (l := table.key.zip (parts table key)) fun pair hpair => by
      obtain ⟨c, hc⟩ := h.values pair hpair
      have known : table.resolve pair.1.name = .ok pair.1 :=
        regular.resolve (List.mem_of_mem_filter (List.of_mem_zip hpair).1)
      unfold Build.keyCondition
      rw [known]
      exact ⟨_, .bind (Lookup.has_known _) (.bind hc (Lookup.has_pure _))⟩
  refine ⟨w, ?_⟩
  unfold Build.keyFilter
  rw [parse_eq_ok.mpr ⟨h.fits, rfl⟩]
  exact .bind (Lookup.has_known _) hw

/-- Where the record has a value for each key column, the parts of the key do not matter. -/
theorem valueAfter_zip : ∀ {columns : List Column} {texts others : List String} {cells : List Cell},
    (∀ column ∈ columns, ∃ v, Entries.get? column.name record = some v) →
    texts.length = columns.length → others.length = columns.length →
    List.Forall₂ (fun pair c => (valueAfter source record pair).Has (.ok c)) (columns.zip texts) cells →
    List.Forall₂ (fun pair c => (valueAfter source record pair).Has (.ok c)) (columns.zip others) cells
  | [], _, _, _, _, _, _, h => by simpa using h
  | column :: columns, text :: texts, other :: others, cells, named, width, width', h => by
    cases h with
    | @cons _ c _ cells hc rest =>
      obtain ⟨v, value⟩ := named column (by simp)
      refine .cons ?_ (valueAfter_zip (fun column h => named column (by simp [h])) (by simpa using width)
        (by simpa using width') rest)
      simpa only [valueAfter, value] using hc

/-- Read by its old key, the row that is read has the values of the row that was changed if the record gives
those that it had. -/
theorem follows_iff_of_none [Nonempty σ] (found : ofRecord? table record = none)
    (legible : Legible source table key) {values after : List Cell}
    (hvalues : List.Forall₂ (fun pair c => (Convert.ofText source pair.1.type pair.2).Has (.ok c))
      (table.key.zip (parts table key)) values)
    (hafter : List.Forall₂ (fun pair c => (valueAfter source record pair).Has (.ok c))
      (table.key.zip (parts table key)) after) :
    values = after ↔ Follows source table key record := by
  rw [Lookup.forall₂_eq_iff hvalues hafter]
  constructor
  · refine fun same => ⟨fun _ pair hpair v value => ?_, fun own => absurd found own⟩
    obtain ⟨c, hc, hafter⟩ := same pair hpair
    simp only [valueAfter, value] at hafter
    exact ⟨c, hc, hafter⟩
  · intro follows pair hpair
    simp only [valueAfter]
    cases value : Entries.get? pair.1.name record with
    | some v => exact follows.kept found pair hpair v value
    | none =>
      obtain ⟨c, hc⟩ := legible.values pair hpair
      exact ⟨c, hc, hc⟩

/-- Read by the key of the record, it has them if the texts of the record's values stand for these. -/
theorem follows_iff_of_some [Nonempty σ] (found : ofRecord? table record = some own) (fits : Fits table key)
    (fits_own : Fits table own) {values after : List Cell}
    (hvalues : List.Forall₂ (fun pair c => (Convert.ofText source pair.1.type pair.2).Has (.ok c))
      (table.key.zip (parts table own)) values)
    (hafter : List.Forall₂ (fun pair c => (valueAfter source record pair).Has (.ok c))
      (table.key.zip (parts table key)) after) :
    values = after ↔ Follows source table key record := by
  obtain ⟨texts, htexts, rfl⟩ := ofRecord?_eq_some found
  have width := htexts.length_eq
  rw [parts_encode width.symm fits_own] at hvalues
  have part : ∀ {column text}, (column, text) ∈ table.key.zip texts →
      ∃ v, Entries.get? column.name record = some v ∧ partOf? v = some text := fun h =>
    Option.bind_eq_some_iff.mp ((List.forall₂_iff_zip.mp htexts).2 h)
  have columns : (table.key.zip texts).map Prod.fst = table.key := List.map_fst_zip (by omega)
  have pairs : ∀ column ∈ table.key, ∃ text, (column, text) ∈ table.key.zip texts := by
    intro column hcolumn
    rw [← columns] at hcolumn
    obtain ⟨pair, hpair, rfl⟩ := List.mem_map.mp hcolumn
    exact ⟨pair.2, hpair⟩
  have named : ∀ column ∈ table.key, ∃ v, Entries.get? column.name record = some v := by
    intro column hcolumn
    obtain ⟨text, hpair⟩ := pairs column hcolumn
    obtain ⟨v, value, -⟩ := part hpair
    exact ⟨v, value⟩
  rw [Lookup.forall₂_eq_iff hvalues (valueAfter_zip named fits.width width.symm hafter)]
  constructor
  · refine fun same => ⟨fun none => ?_, fun _ column hcolumn v text value own => ?_⟩
    · rw [found] at none
      cases none
    · obtain ⟨text', hpair⟩ := pairs column hcolumn
      obtain ⟨v', value', own'⟩ := part hpair
      cases value.symm.trans value'
      cases own.symm.trans own'
      obtain ⟨c, hc, hafter⟩ := same _ hpair
      simp only [valueAfter, value] at hafter
      exact ⟨c, hc, hafter⟩
  · rintro follows ⟨column, text⟩ hpair
    obtain ⟨v, value, own⟩ := part hpair
    simp only [valueAfter, value]
    exact follows.own (by simp [found]) column (List.of_mem_zip hpair).1 v text value own

/-- The row that is read has the values of the row that was changed if its key follows the change. -/
theorem follows_iff [Nonempty σ] (fits : Fits table key)
    (legible : Legible source table (again table key record)) {values after : List Cell}
    (hvalues : List.Forall₂ (fun pair c => (Convert.ofText source pair.1.type pair.2).Has (.ok c))
      (table.key.zip (parts table (again table key record))) values)
    (hafter : List.Forall₂ (fun pair c => (valueAfter source record pair).Has (.ok c))
      (table.key.zip (parts table key)) after) :
    values = after ↔ Follows source table key record := by
  cases found : ofRecord? table record with
  | none =>
    have old : again table key record = key := by rw [again, found, Option.getD_none]
    rw [old] at hvalues legible
    exact follows_iff_of_none found legible hvalues hafter
  | some own =>
    have new : again table key record = own := by rw [again, found, Option.getD_some]
    rw [new] at hvalues legible
    exact follows_iff_of_some found fits legible.fits hvalues hafter

/-- A change that can be made has a value for each column that the record names. -/
theorem converted_of_gives (steady : source.current.Steady) {filter : Where} {returning : Bool}
    {st : Statement} (h : (Build.update source table record filter returning).Gives t st u) :
    ∀ column ∈ table.columns, ∀ v, Entries.get? column.name record = some v →
      ∃ c, (Convert.parameter source column.type v).Has (.ok c) := by
  intro column hcolumn v value
  obtain ⟨-, row, hrow, -⟩ := Build.update_gives h
  have named : column ∈ Build.columnsOf table [record] :=
    List.mem_filter.mpr ⟨hcolumn, by simp [Entries.has, value]⟩
  obtain ⟨a, -, v', value', -, -, _, _, hc⟩ := exists_of_forall₂ (Build.columnsOf_binds hrow).flip column named
  cases value.symm.trans value'
  exact ⟨_, (Convert.parameter_steady steady _ _).has (congrArg Prod.fst hc)⟩

/-- After a change that can be made, the row has a value in each key column. -/
theorem exists_valuesAfter (legible : Legible source table key)
    (converted : ∀ column ∈ table.columns, ∀ v, Entries.get? column.name record = some v →
      ∃ c, (Convert.parameter source column.type v).Has (.ok c)) :
    ∃ after, (valuesAfter source table key record).Has (.ok after) ∧
      List.Forall₂ (fun pair c => (valueAfter source record pair).Has (.ok c))
        (table.key.zip (parts table key)) after := by
  refine Lookup.has_mapM fun pair hpair => ?_
  unfold valueAfter
  split
  · rename_i v value
    exact converted pair.1 (List.mem_of_mem_filter (List.of_mem_zip hpair).1) v value
  · exact legible.values pair hpair

/-! ### Documents that stand in keys -/

/-- The document is a string, or an integer for a column of integers. -/
def Plain (type : ColumnType) : Json → Prop
  | .str _ => True
  | .int _ => type = .scalar .smallInt ∨ type = .scalar .integer ∨ type = .scalar .bigInt
  | _ => False

/-- An integer is converted like its text. -/
theorem integer_ownText {n : Int} {c : Cell} (h : Convert.integer (.int n) = .ok c) :
    Convert.integer (.str (Json.int n).text) = .ok c := by
  have read : Number.readInt? (Text.trim (Json.int n).text.toList) = Number.int64? n := by
    have written : (Json.int n).text.toList = Number.intText n := String.toList_ofList
    rw [written, Text.trim_eq_self (Number.intText_not_isBlank n), Number.readInt?_intText_eq]
  simp only [Convert.integer, read, Json.int64?] at h ⊢
  cases fits : Number.int64? n with
  | some m => simpa only [fits] using h
  | none => simp [fits] at h

theorem Plain.exists_part {type : ColumnType} {v : Json} (h : Plain type v) :
    ∃ text, partOf? v = some text := by
  cases v with
  | str s => exact ⟨s, rfl⟩
  | int n => exact ⟨_, rfl⟩
  | _ => exact h.elim

/-- The text of a plain document stands for it. -/
theorem Plain.same [Nonempty σ] {type : ColumnType} {v : Json} (h : Plain type v) {c : Cell}
    {text : String} (converted : (Convert.parameter source type v).Has (.ok c))
    (own : partOf? v = some text) : Same source type text v := by
  obtain ⟨t⟩ := ‹Nonempty σ›
  refine ⟨c, ?_, converted⟩
  cases v with
  | str s =>
    cases own
    simpa only [Convert.parameter, Convert.ofText] using converted
  | int n =>
    cases own
    have integer : Convert.integer (.int n) = .ok c →
        Lookup.Has (known (Convert.integer (.str (Json.int n).text)) : Lookup σ Cell) (.ok c) := by
      intro h
      rw [integer_ownText h]
      exact Lookup.has_known _
    simp only [Convert.parameter] at converted
    rcases h with rfl | rfl | rfl
    all_goals
      rw [Convert.ofText_scalar]
      exact integer (converted t)
  | _ => exact h.elim

/-- A change that leaves the primary key alone is followed. -/
theorem Follows.of_untouched (untouched : ∀ column ∈ table.key, Entries.get? column.name record = none) :
    Follows source table key record where
  kept _ pair hpair v value := by
    rw [untouched pair.1 (List.of_mem_zip hpair).1] at value
    cases value
  own _ column hcolumn v _ value _ := by
    rw [untouched column hcolumn] at value
    cases value

/-- So is one that gives it anew in plain documents. -/
theorem Follows.of_plain [Nonempty σ] (keyed : table.key ≠ [])
    (converted : ∀ column ∈ table.columns, ∀ v, Entries.get? column.name record = some v →
      ∃ c, (Convert.parameter source column.type v).Has (.ok c))
    (plain : ∀ column ∈ table.key, ∃ v, Entries.get? column.name record = some v ∧ Plain column.type v) :
    Follows source table key record where
  kept none := by
    refine absurd none (ofRecord?_ne_none keyed fun column hcolumn => ?_)
    obtain ⟨v, value, plain⟩ := plain column hcolumn
    obtain ⟨text, own⟩ := plain.exists_part
    exact ⟨text, by rw [value, Option.bind_some, own]⟩
  own _ column hcolumn v text value own := by
    obtain ⟨v', value', plain⟩ := plain column hcolumn
    cases value.symm.trans value'
    obtain ⟨c, hc⟩ := converted column (List.mem_of_mem_filter hcolumn) v value
    exact plain.same hc own

end Key

/-! ## Runs -/

namespace Action

/-- The statements of two steps are those of the first, and then those of the second, unless the first
fails. -/
theorem runs_bind {x : Action σ δ α} {f : α → Action σ δ β}
    {R : Except Fault α → List Statement → Prop} {S : Except Fault β → List Statement → Prop}
    (hx : Session.Runs x.run R)
    (value : ∀ a first, R (.ok a) first → Session.Runs (f a).run fun r last => S r (first ++ last))
    (fault : ∀ e first, R (.error e) first → S (.error e) first) : Session.Runs (x >>= f).run S := by
  intro s
  obtain ⟨first, hfirst, hR⟩ := hx s
  change (x.run s).2.sent = _ at hfirst
  change R (x.run s).1 first at hR
  show ∃ new, ((x >>= f).run s).2.sent = s.sent ++ new ∧ S ((x >>= f).run s).1 new
  rw [run_bind]
  cases outcome : (x.run s).1 with
  | error e =>
    rw [outcome] at hR
    exact ⟨first, hfirst, fault e first hR⟩
  | ok a =>
    rw [outcome] at hR
    obtain ⟨last, hlast, hS⟩ := value a first hR (x.run s).2
    refine ⟨first ++ last, ?_, hS⟩
    rw [← List.append_assoc, ← hfirst]
    exact hlast

variable {P : Statement → Prop} {Q : α → Prop} {E : Fault → Prop}

theorem Sends.runs {x : Action σ δ α} (h : x.Sends P Q E) :
    Session.Runs x.run fun r new => (∀ st ∈ new, P st) ∧ Outcome Q E r := h

/-- A part that sends no statement with any property sends none. -/
theorem Sends.silent {x : Action σ δ α} (h : x.Sends (fun _ => False) Q E) :
    Session.Runs x.run fun _ new => new = [] :=
  h.runs.mono fun _ _ h => List.eq_nil_iff_forall_not_mem.mpr h.1

theorem look_runs (x : Lookup σ α) : Session.Runs (Session.look x : Action σ δ α).run fun r new =>
    new = [] ∧ ∃ t u, x.run t = (r, u) :=
  fun s => ⟨[], (List.append_nil _).symm, rfl, s.schema, _, rfl⟩

end Action

/-- Every statement that may change rows changes some. -/
def Database.Effective (db : Database δ) : Prop := ∀ st d, ∃ n, (db.execute st d).1 = .ok n ∧ n ≠ 0

namespace Gateway

variable {g : Gateway σ δ} {table : Table} {key : String} {record : Record}

theorem first?_runs (st : Statement) : Session.Runs (g.first? table st).run fun _ new => new = [st] := by
  have asked : Session.Runs (g.fetch st).run fun _ new => new = [st] := fun s => ⟨[st], rfl, rfl⟩
  unfold first?
  refine Action.runs_bind asked (fun rows first same => ?_) fun _ _ same => same
  refine Action.runs_bind (Action.Sends.silent (records_sends (E := fun _ => True) table rows))
    (fun records none hnone => ?_) fun _ none hnone => by rw [same, hnone]; rfl
  exact .pure (by rw [same, hnone]; rfl)

/-- After a change the row is selected by its key, unless that is refused. -/
inductive Rereads (g : Gateway σ δ) (table : Table) (key : String) (record : Record) :
    List Statement → Prop
  | stop (refused : g.db.Effective →
      ∃ t e, ((Build.keyFilter g.source table (Key.again table key record)).run t).1 = .error e) :
      Rereads g table key record []
  | select {t u : σ} {w : Where}
      (h : (Build.keyFilter g.source table (Key.again table key record)).Gives t w u) :
      Rereads g table key record [.select { table := table.name, filter := w }]

theorem changed?_runs (st : Statement) : Session.Runs (g.changed? table key record st).run
    fun _ new => ∃ rest, new = st :: rest ∧ Rereads g table key record rest := by
  have applied : Session.Runs (g.apply st).run fun r new => new = [st] ∧
      (g.db.Effective → ∃ n, r = .ok n ∧ n ≠ 0) := by
    refine fun s => ⟨[st], rfl, rfl, fun effective => ?_⟩
    obtain ⟨n, answer, some⟩ := effective st s.database
    refine ⟨n, ?_, some⟩
    show (g.db.execute st s.database).1.mapError Fault.classified = .ok n
    rw [answer]
    rfl
  unfold changed?
  refine Action.runs_bind applied (fun n first ⟨sent, effective⟩ => ?_) fun e first ⟨sent, effective⟩ => ?_
  · subst sent
    split
    · rename_i none
      refine .pure ⟨[], rfl, .stop fun h => ?_⟩
      obtain ⟨m, same, some⟩ := effective h
      cases same
      exact absurd none some
    · unfold find?
      refine Action.runs_bind (Action.look_runs _) (fun w none ⟨hnone, t, u, gives⟩ => ?_)
        fun e none ⟨hnone, t, u, fails⟩ => ?_
      · subst hnone
        refine (first?_runs _).mono fun _ new same => ⟨new, rfl, ?_⟩
        rw [same]
        exact .select gives
      · subst hnone
        exact ⟨[], rfl, .stop fun _ => ⟨t, e, congrArg Prod.fst fails⟩⟩
  · subst sent
    refine ⟨[], rfl, .stop fun h => ?_⟩
    obtain ⟨m, same, -⟩ := effective h
    cases same

/-- What is sent to change the row with a key, once the table is known: nothing, or the change and what comes
after it. -/
inductive ChangesRow (g : Gateway σ δ) (table : Table) (key : String) (record : Record) :
    List Statement → Prop
  | nothing : ChangesRow g table key record []
  | change {t u t' u' : σ} {w : Where} {st : Statement} {rest : List Statement}
      (hfilter : (Build.keyFilter g.source table key).Gives t w u)
      (hst : (Build.update g.source table record w false).Gives t' st u')
      (h : Rereads g table key record rest) : ChangesRow g table key record (st :: rest)

/-- A request to change a row asks for privileges first. -/
theorem update_runs {snapshot : Snapshot} (fixes : g.source.Fixes snapshot)
    (unreturned : g.config.database.supportsReturning = false) {name : String}
    (resolved : snapshot.resolve name = .ok table) :
    Session.Runs (g.update name key (.obj record)).run fun _ new => ∃ asked rest, new = asked ++ rest ∧
      (∀ st ∈ asked, st.isWrite = false ∧ st.isSelection = false) ∧
      ChangesRow g table key record rest := by
  have supplies : g.source.Supplies (· = snapshot) := by
    intro t s h
    cases h.symm.trans (fixes t)
    rfl
  unfold update
  refine Action.runs_bind (writable_sends (P := fun st => st.isWrite = false ∧ st.isSelection = false)
    supplies (fun _ _ => ⟨rfl, rfl⟩) name _).runs
    (fun found asked ⟨quiet, about⟩ => ?_) fun e asked ⟨quiet, _⟩ => ?_
  · obtain ⟨_, rfl, same⟩ := about.of_ok
    cases resolved.symm.trans same
    suffices rest : Session.Runs _ fun _ rest => ChangesRow g table key record rest from
      Session.Runs.mono rest fun _ rest h => ⟨asked, rest, rfl, quiet, h⟩
    simp only [unreturned, Bool.false_eq_true, ↓reduceIte]
    refine Action.runs_bind (Action.look_runs _) (fun w none ⟨hnone, t, u, hw⟩ => ?_)
      fun e none ⟨hnone, _⟩ => by rw [hnone]; exact .nothing
    subst hnone
    refine Action.runs_bind (Action.look_runs _) (fun st none ⟨hnone, t', u', hst⟩ => ?_)
      fun e none ⟨hnone, _⟩ => by rw [hnone]; exact .nothing
    subst hnone
    refine Action.runs_bind (changed?_runs st) (fun r first ⟨rest, same, h⟩ => ?_)
      fun e first ⟨rest, same, h⟩ => by rw [same]; exact .change hw hst h
    refine (found_sends (P := fun _ => False) r (fun _ => trivial) (E := fun _ => True) trivial).silent.mono ?_
    intro _ none hnone
    rw [same, hnone, List.append_nil]
    exact .change hw hst h
  · exact ⟨asked, [], (List.append_nil _).symm, quiet, .nothing⟩

end Gateway

namespace Operation

/-- What follows the change of a row by its key, where the row has some values in its primary key then. -/
structure ReadsAgain (g : Gateway σ δ) (table : Table) (key : String) (record : Record)
    (after : List Cell) (rest : List Statement) : Prop where
  values : (Key.valuesAfter g.source table key record).Has (.ok after)
  /-- At most the row is selected, and it is the one with these values if its key follows the change. -/
  selection : rest = [] ∨ ∃ values st, rest = [st] ∧ st.params = values ∧
    st = .select { table := table.name, filter := Where.equals table.key values } ∧
    (values = after ↔ Key.Follows g.source table key record)
  /-- Where the change is reported, the row is selected unless the record has a key that is none of the
  table. -/
  selects : g.db.Effective → (rest ≠ [] ↔
    ∀ own, Key.ofRecord? table record = some own → Key.Legible g.source table own)
  /-- A key that is left alone follows the change, and so does one that is given anew in plain documents. -/
  follows : (∀ column ∈ table.key, Entries.get? column.name record = none) ∨
    (∀ column ∈ table.key, ∃ v, Entries.get? column.name record = some v ∧ Key.Plain column.type v) →
    Key.Follows g.source table key record

variable {g : Gateway σ δ} {snapshot : Snapshot} {table : Table} {key : String} {record : Record}

/-- What comes after a change reads the row again. -/
theorem ReadsAgain.of_rereads (steady : g.source.current.Steady) (regular : table.Regular) {t u t' u' : σ}
    {w : Where} {st : Statement} {rest : List Statement}
    (hfilter : (Build.keyFilter g.source table key).Gives t w u)
    (hst : (Build.update g.source table record w false).Gives t' st u')
    (h : g.Rereads table key record rest) : ∃ after, ReadsAgain g table key record after rest := by
  have state : Nonempty σ := ⟨t⟩
  obtain ⟨legible, -⟩ := Key.legible_of_gives steady regular hfilter
  have converted := Key.converted_of_gives steady hst
  obtain ⟨after, hafter, each⟩ := Key.exists_valuesAfter legible converted
  -- The old key is legible, so only a key of the record may be refused.
  have legible_again : Key.Legible g.source table (Key.again table key record) ↔
      ∀ own, Key.ofRecord? table record = some own → Key.Legible g.source table own := by
    unfold Key.again
    cases Key.ofRecord? table record with
    | none => simpa using legible
    | some own => simp
  refine ⟨after, hafter, ?_, fun effective => ?_, ?_⟩
  · cases h with
    | stop => exact .inl rfl
    | select h =>
      obtain ⟨again, values, rfl, width, hvalues⟩ := Key.legible_of_gives steady regular h
      refine .inr ⟨values, _, rfl, ?_, rfl, Key.follows_iff legible.fits again hvalues each⟩
      simp [Statement.params, Selection.params, Where.equals_params width]
  · rw [← legible_again]
    cases h with
    | stop refused =>
      obtain ⟨t, e, fails⟩ := refused effective
      refine iff_of_false (fun some => some rfl) fun again => ?_
      obtain ⟨w, hw⟩ := again.exists_filter regular
      cases fails.symm.trans (hw t)
    | select h => exact iff_of_true (List.cons_ne_nil _ _) (Key.legible_of_gives steady regular h).1
  · rintro (untouched | plain)
    · exact .of_untouched untouched
    · exact .of_plain legible.fits.keyed converted plain

/-- Where the database does not return rows, the change of a row is followed by the selection of one row by
its primary key. That row is the one which was changed if and only if the text by which it is read stands for
the values that the primary key has after the change. -/
theorem update_rereads (fixes : g.source.Fixes snapshot)
    (unreturned : g.config.database.supportsReturning = false) {name : String}
    (resolved : snapshot.resolve name = .ok table) (regular : table.Regular) (schema : σ) (database : δ)
    (wrote : ∃ st ∈ (((update name key (.obj record)).perform g).run { schema, database }).2.sent,
      st.isWrite = true) :
    ∃ asked st rest after,
      (((update name key (.obj record)).perform g).run { schema, database }).2.sent =
        asked ++ st :: rest ∧
      (∀ st ∈ asked, st.isWrite = false ∧ st.isSelection = false) ∧ st.isWrite = true ∧
      ReadsAgain g table key record after rest := by
  have runs : Session.Runs ((update name key (.obj record)).perform g).run fun _ new =>
      ∃ asked rest, new = asked ++ rest ∧ (∀ st ∈ asked, st.isWrite = false ∧ st.isSelection = false) ∧
        g.ChangesRow table key record rest :=
    Action.runs_bind (Gateway.update_runs fixes unreturned resolved)
      (fun _ first h => .pure (by rwa [List.append_nil])) fun _ _ h => h
  obtain ⟨asked, rest, sent, quiet, chain⟩ := runs.fresh schema database
  change (((update name key (.obj record)).perform g).run { schema, database }).2.sent = _ at sent
  rw [sent] at wrote ⊢
  cases chain with
  | nothing =>
    obtain ⟨st, hst, write⟩ := wrote
    rw [List.append_nil] at hst
    rw [(quiet st hst).1] at write
    cases write
  | change hfilter hst h =>
    obtain ⟨after, reads⟩ := ReadsAgain.of_rereads fixes.steady regular hfilter hst h
    obtain ⟨-, row, -, rfl⟩ := Build.update_gives hst
    exact ⟨asked, _, _, after, rfl, quiet, rfl, reads⟩

end Operation

/-- The lines of orders in a database that does not return rows. -/
def plainLines : Gateway Unit Unit :=
  { linesGateway with config := { database := { supportsReturning := false } } }

def lineAmount : Record := [("amount", .int 3)]

def lineOrder : Record := [("order_id", .int 8)]

theorem lineAmount_wrote : ∃ st ∈ (((Operation.update "lines" "7,6f" (.obj lineAmount)).perform
    plainLines).run { schema := (), database := () }).2.sent, st.isWrite = true := by
  decide +kernel

theorem update_rereads_lineAmount : ∃ asked st rest after,
    plainLines.config.database.supportsReturning = false ∧ linesTable.Regular ∧
    (((Operation.update "lines" "7,6f" (.obj lineAmount)).perform plainLines).run
      { schema := (), database := () }).2.sent = asked ++ st :: rest ∧
    Operation.ReadsAgain plainLines linesTable "7,6f" lineAmount after rest := by
  have regular : linesTable.Regular := ⟨by decide, by decide⟩
  have fixes : plainLines.source.Fixes { tables := [("lines", linesTable)] } := fun _ => rfl
  have resolved : Snapshot.resolve { tables := [("lines", linesTable)] } "lines" = .ok linesTable := rfl
  obtain ⟨asked, st, rest, after, sent, -, -, reads⟩ :=
    Operation.update_rereads fixes rfl resolved regular () () lineAmount_wrote
  exact ⟨asked, st, rest, after, rfl, regular, sent, reads⟩

/-- A line that is moved to another order is read from its old order. -/
theorem lineOrder_read_before : ∃ st again,
    (((Operation.update "lines" "7,6f" (.obj lineOrder)).perform plainLines).run
      { schema := (), database := () }).2.sent = [st, again] ∧
    st.sql = "UPDATE lines SET order_id = ? WHERE order_id = ? AND line = ?::uuid" ∧
    again.sql = "SELECT * FROM lines WHERE order_id = ? AND line = ?::uuid" ∧
    again.params = [.int 7, .text "6f"] ∧
    (Key.valuesAfter plainLines.source linesTable "7,6f" lineOrder).Has (.ok [.int 8, .text "6f"]) :=
  ⟨_, _, rfl, by decide +kernel, by decide +kernel, rfl, fun _ => rfl⟩

end TableGateway
