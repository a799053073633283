/-
CampusQuery.Proofs.Row.Insertion — rows that are filled column by column.

`names_insert` says what one column more does to the names of a row: it stays
where it is or comes last. So the names are in the order in which they are
first set (`pairwise_names_ofColumns`), and the value of a column is the one
that it is set to last (`get?_ofColumns_eq_lookup`). The text of a row has its
members in the order of the columns (`Json.chars_object`), under keys that are
written differently if they differ (`Json.quoteChars_inj`).
-/
import CampusQuery.Proofs.Json.Members
import CampusQuery.Proofs.Json.RoundTrip
import CampusQuery.Proofs.Row

namespace CampusQuery

/-! ## Texts of objects -/

namespace Json

def memberChars (key : String) (value : Json) : List Char :=
  quoteChars key ++ ':' :: value.chars

theorem memberChars_moreMembers (rest : List (String × Json)) :
    ∀ member : String × Json,
      memberChars member.1 member.2 ++ moreMembers rest =
        [','].intercalate ((member :: rest).map fun member =>
          memberChars member.1 member.2) ++ ['\x7d'] := by
  induction rest with
  | nil => intro member; simp [moreMembers]
  | cons next rest ih =>
    intro member
    have hrest := ih next
    rw [List.map_cons] at hrest
    rw [List.map_cons, List.map_cons, List.intercalate_cons_cons]
    simp only [List.append_assoc, ← hrest]
    simp [moreMembers, memberChars]

/-- The members of an object are written in order, with commas between them
and braces around. -/
theorem chars_object (members : List (String × Json)) :
    (object members).chars =
      '\x7b' :: [','].intercalate
        (members.map fun member => memberChars member.1 member.2)
          ++ ['\x7d'] := by
  cases members with
  | nil => simp [chars]
  | cons member rest =>
    rw [List.cons_append, ← memberChars_moreMembers]
    simp [chars, memberChars]

/-- Different strings are written differently, since what is written can be
read. -/
theorem quoteChars_inj {first second : String}
    (h : quoteChars first = quoteChars second) : first = second := by
  have hread : ∀ text : String,
      readBefore? (fun _ => true) 0 (Json.string text).text
        = some (.string text) :=
    fun text => readBefore?_text (by simp) (Nat.le_refl 0)
  have hsame : (Json.string first).text = (Json.string second).text := by
    simp [text, chars, h]
  have hboth := hread second
  rw [← hsame, hread first] at hboth
  simpa using hboth

end Json

/-! ## Filling a row -/

namespace Row

/-- One column more keeps the names; a new one comes last. -/
theorem names_insert (row : Row) (column : String) (value : Value) :
    (row.insert column value).names =
      if column ∈ row.names then row.names else row.names ++ [column] :=
  map_fst_setColumn column value row.columns

theorem ofColumns_concat (columns : List (String × Value))
    (last : String × Value) :
    ofColumns (columns ++ [last])
      = (ofColumns columns).insert last.1 last.2 := by
  simp [ofColumns]

/-- The value of a column is the last one that it is set to. -/
theorem get?_ofColumns_eq_lookup (columns : List (String × Value))
    (column : String) :
    (ofColumns columns).get? column = columns.reverse.lookup column := by
  induction columns using List.reverseRecOn with
  | nil => rfl
  | append_singleton front last ih =>
    rw [ofColumns_concat, List.reverse_append, List.reverse_singleton,
      List.singleton_append, List.lookup_cons]
    by_cases h : column = last.1
    · subst h
      simp [get?_insert_self]
    · have hne : (column == last.1) = false := by simpa using h
      rw [get?_insert_of_ne _ h, ih, hne]

theorem mem_names_ofColumns {columns : List (String × Value)}
    {column : String} :
    column ∈ (ofColumns columns).names ↔ column ∈ columns.map Prod.fst := by
  rw [← contains_iff, contains_ofColumns]

/-- The first column is set for the first time before the second one is. -/
def SetBefore (columns : List (String × Value)) (first second : String) :
    Prop :=
  (columns.map Prod.fst).idxOf first < (columns.map Prod.fst).idxOf second

/-- Columns that are set later do not come before. -/
theorem SetBefore.concat {columns : List (String × Value)}
    {first second : String} (hfirst : first ∈ columns.map Prod.fst)
    (hsecond : second ∈ columns.map Prod.fst)
    (h : SetBefore columns first second) (last : String × Value) :
    SetBefore (columns ++ [last]) first second := by
  simpa only [SetBefore, List.map_append, List.idxOf_append_of_mem hfirst,
    List.idxOf_append_of_mem hsecond] using h

/-- A new column is set after all others. -/
theorem setBefore_new {columns : List (String × Value)} {first : String}
    {last : String × Value} (hfirst : first ∈ columns.map Prod.fst)
    (hlast : last.1 ∉ columns.map Prod.fst) :
    SetBefore (columns ++ [last]) first last.1 := by
  have hlt := List.idxOf_lt_length_of_mem hfirst
  rw [SetBefore, List.map_append, List.idxOf_append_of_mem hfirst,
    List.idxOf_append_of_notMem hlast]
  exact Nat.lt_add_right _ hlt

/-- The names are in the order in which they are first set. -/
theorem pairwise_names_ofColumns (columns : List (String × Value)) :
    (ofColumns columns).names.Pairwise (SetBefore columns) := by
  -- From the end: what comes first is settled by the columns before.
  induction columns using List.reverseRecOn with
  | nil => exact .nil
  | append_singleton front last ih =>
    have hfront : (ofColumns front).names.Pairwise
        (SetBefore (front ++ [last])) := by
      refine ih.imp_of_mem fun hfirst hsecond hbefore => ?_
      exact hbefore.concat (mem_names_ofColumns.mp hfirst)
        (mem_names_ofColumns.mp hsecond) last
    rw [ofColumns_concat, names_insert]
    split
    · exact hfront
    · rename_i hnew
      refine List.pairwise_append.mpr ⟨hfront, List.pairwise_singleton _ _, ?_⟩
      intro first hfirst second hsecond
      obtain rfl := List.mem_singleton.mp hsecond
      exact setBefore_new (mem_names_ofColumns.mp hfirst)
        fun hmem => hnew (mem_names_ofColumns.mpr hmem)

theorem nodup_names_ofColumns (columns : List (String × Value)) :
    (ofColumns columns).names.Nodup := by
  refine (pairwise_names_ofColumns columns).imp ?_
  intro first second hbefore hsame
  rw [hsame] at hbefore
  exact Nat.lt_irrefl _ hbefore

/-- With every name there once, the columns are the names with the values that
they are found to have. -/
theorem columns_eq {row : Row} (h : row.names.Nodup) :
    row.columns = row.names.filterMap fun column =>
      (row.get? column).map (column, ·) := by
  have hfound : ∀ entry ∈ row.columns,
      (row.get? entry.1).map (entry.1, ·) = some entry := by
    intro entry hentry
    have hlookup : row.get? entry.1 = some entry.2 :=
      Json.lookup_of_mem h hentry
    rw [hlookup]
    rfl
  rw [names, List.filterMap_map]
  exact ((List.filterMap_congr hfound).trans List.filterMap_some).symm

/-- A row that is filled column by column has every column once, in the order
in which they are first set, and the value of a column is the one that it is
set to last. So the text of the row has no key twice, and lists the columns in
that order with these values. -/
theorem ofColumns_ordered (columns : List (String × Value)) :
    let row := ofColumns columns
    row.names.Nodup ∧
    (∀ column, column ∈ row.names ↔ column ∈ columns.map Prod.fst) ∧
    row.names.Pairwise (SetBefore columns) ∧
    (∀ column, row.get? column = columns.reverse.lookup column) ∧
    (∀ column, row.get? column = none ↔ column ∉ columns.map Prod.fst) ∧
    (row.names.map Json.quoteChars).Nodup ∧
    row.toJson.chars =
      '\x7b' :: [','].intercalate (row.names.filterMap fun column =>
        (row.get? column).map fun value =>
          Json.memberChars column value.toJson) ++ ['\x7d'] := by
  intro row
  have hnodup : row.names.Nodup := nodup_names_ofColumns columns
  refine ⟨hnodup, fun _ => mem_names_ofColumns,
    pairwise_names_ofColumns columns, get?_ofColumns_eq_lookup columns, ?_,
    ?_, ?_⟩
  · intro column
    rw [← mem_names_ofColumns, ← contains_iff, contains, Bool.not_eq_true,
      Option.isSome_eq_false_iff, Option.isNone_iff_eq_none]
  · exact hnodup.map fun _ _ => Json.quoteChars_inj
  · rw [toJson, Json.chars_object]
    conv_lhs => rw [columns_eq hnodup]
    simp [List.map_filterMap, Function.comp_def]

/-- A column that is set twice stays where it is. -/
example :
    (ofColumns [("n", .text "one"), ("dept", .text "cpsc"),
      ("n", .text "two")]).columns
        = [("n", .text "two"), ("dept", .text "cpsc")] := by
  decide

end Row

end CampusQuery
