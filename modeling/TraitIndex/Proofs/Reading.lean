import TraitIndex.Api.Routes
import TraitIndex.Proofs.Fields
import TraitIndex.Proofs.Outcomes
import TraitIndex.Proofs.Transport
import TraitIndex.Proofs.Wholeness

/-! Reading what is listed.

    A trait can be read in two ways: by a request for it alone, and as an entry of the table of all
    traits. Names are trimmed when they are asked for and not when they are stored. So a request
    for a listed trait is one for its trimmed name: the two ways agree on that, where it is listed
    too, and a trait whose name is blank cannot be asked for at all. An answer in which half of a
    pair would stand is not given. -/

namespace TraitIndex

namespace Table

variable {t : Table} {trait : Text} {records : List Implementor}

theorem get_of_mem (h : (trait, records) ∈ t.rows) : t.get trait = records := by
  have := Fields.get?_of_mem t.distinct h
  rw [Fields.get?] at this
  rw [get, this, Option.getD_some]

theorem contains_iff : t.contains trait = true ↔ trait ∈ t.traits := by
  simp only [contains, traits, List.any_eq_true, decide_eq_true_eq, List.mem_map]

/-- The entry of a trait among the rows that are shown. -/
theorem get?_rowsToJson {keep : Implementor → Bool} {shown : Text → Bool}
    (h : (trait, records) ∈ t.rows) (hshown : shown trait = true) :
    Fields.get? (((t.filterRows keep).filter fun row => shown row.1).map fun row =>
        (row.1, Json.list (row.2.map Implementor.toJson))) trait =
      some (.list ((records.filter keep).map Implementor.toJson)) := by
  refine Fields.get?_of_mem ?_ ?_
  · rw [List.map_map]
    refine List.Nodup.sublist (List.Sublist.map _ List.filter_sublist) ?_
    rw [filterRows, List.map_map]
    exact t.distinct
  · refine List.mem_map.2 ⟨(trait, records.filter keep), List.mem_filter.2 ⟨?_, hshown⟩, rfl⟩
    exact List.mem_map.2 ⟨(trait, records), h, rfl⟩

end Table

namespace Api

variable {κ : Type} {page : Page κ} {feed : Feed} {attached : Bool} {r : Request}

/-- A draft of a request for a path as the server sees it. -/
theorem Draft.request_path {method target body : String} {query : Option (List (String × String))}
    {content : Content} {origin : Option String}
    (htarget : Url.ofString target = .ok { path := target.toList })
    (hplace : (serverUrl.extend { path := target.toList }).place = target)
    (hfields : (serverUrl.extend { path := target.toList }).fields = [])
    (hmethod : Text.inCapitals method = method)
    (hbody : content.sentText = .ok body) :
    request { method, target, query, content, origin } =
      .ok { method, path := target, query := query.getD [], body, origin } := by
  have hwithin : Url.isAbsolute { path := target.toList } = false := rfl
  have hsendable : (serverUrl.extend { path := target.toList }).sendable =
      .ok (serverUrl.extend { path := target.toList }) := rfl
  have hspoken : spokenTo (serverUrl.extend { path := target.toList }) = .ok () := rfl
  simp only [request, htarget, hwithin, hbody, bind, Except.bind, Bool.false_eq_true, if_false,
    hsendable, hspoken, hplace, hfields, hmethod]
  rfl

/-! ### Requests that are answered at once -/

/-- A request that finds its endpoint. -/
theorem found_of_find {route : Route} (h : Route.find r = .ok route) :
    Route.at? r.path = some route ∧ r.method ∈ route.methods := by
  unfold Route.find at h
  split at h
  · exact absurd h (by simp)
  · rename_i route' hat
    split at h
    · rename_i hmethod
      obtain rfl := Except.ok.inj h
      exact ⟨hat, hmethod⟩
    · exact absurd h (by simp)

/-- A request that finds none. -/
theorem refused_of_find {response : Response} (h : Route.find r = .error response) :
    response = .refused 404 "Not Found" ∨ response = .refused 405 "Method Not Allowed" := by
  unfold Route.find at h
  split at h
  · exact .inl (Except.error.inj h).symm
  · split at h
    · exact absurd h (by simp)
    · exact .inr (Except.error.inj h).symm

/-- A body that is no object. -/
theorem refused_of_members {response : Response} (h : members r = .error response) :
    response = .refused 400 "There was an error parsing the body" ∨ response = .unprocessable := by
  unfold members at h
  split at h
  · exact absurd h (by simp)
  · exact .inl (Except.error.inj h).symm
  · exact .inl (Except.error.inj h).symm
  · exact .inr (Except.error.inj h).symm

/-- What an endpoint answers at once is the answer to a request that finds it. -/
theorem plan_of_answer {route : Route} {response : Response} (hfind : Route.find r = .ok route)
    (hmethod : "HEAD" ∉ route.methods)
    (h : planAt route page feed attached r = return .answer response) :
    plan page feed attached r = (.answer response, []) := by
  have hne : r.method ≠ "HEAD" := fun e => hmethod (e ▸ (found_of_find hfind).2)
  simp only [plan, hfind, h, Outcome.pure_eq, Response.forMethod, hne, if_false]

theorem plan_traits (hfind : Route.find r = .ok .traits) :
    plan page feed attached r = (.answer (traits page), []) :=
  plan_of_answer hfind (by decide) rfl

theorem plan_implementors (hfind : Route.find r = .ok .implementors) :
    plan page feed attached r = (.answer (implementors page r), []) :=
  plan_of_answer hfind (by decide) rfl

/-! ### One trait -/

theorem trait_blank {field s : Text} (h : Text.trim s = "") :
    Query.trait field (.text s) = .error (.empty field) := by
  show (if Text.trim s = "" then _ else _) = _
  rw [if_pos h]

theorem trait_of_ne {field s : Text} (h : Text.trim s ≠ "") :
    Query.trait field (.text s) = .ok (Text.trim s) := by
  show (if Text.trim s = "" then _ else Except.ok (Text.trim s)) = _
  rw [if_neg h]

variable {flag : Option Bool} {name : String}

theorem implementors_blank (hflag : filter? r = .ok flag)
    (htrait : r.parameter? "trait" = some name) (hblank : Text.trim name = "") :
    implementors page r = .refused 400 "trait cannot be empty" := by
  simp only [implementors, hflag, htrait, trait_blank hblank]
  rfl

theorem implementors_unknown (hflag : filter? r = .ok flag)
    (htrait : r.parameter? "trait" = some name) (hne : Text.trim name ≠ "")
    (hunknown : Text.trim name ∉ page.table.traits) :
    implementors page r = .refused 404 ("Unknown trait: " ++ Text.trim name) := by
  simp only [implementors, hflag, htrait, trait_of_ne hne]
  rw [if_neg fun h => hunknown (Table.contains_iff.1 h)]

/-- The records of a trait that a request chooses. -/
def chosen (page : Page κ) (flag : Option Bool) (trait : Text) : List Json :=
  ((page.table.get trait).filter (keeps flag)).map Implementor.toJson

theorem implementors_one (hflag : filter? r = .ok flag)
    (htrait : r.parameter? "trait" = some name) (hne : Text.trim name ≠ "")
    (hknown : Text.trim name ∈ page.table.traits) :
    implementors page r = .success (.list (chosen page flag (Text.trim name))) := by
  simp only [implementors, hflag, htrait, trait_of_ne hne]
  rw [if_pos (Table.contains_iff.2 hknown)]
  rfl

theorem implementors_all (page : Page κ) (hflag : filter? r = .ok flag)
    (htrait : r.parameter? "trait" = none) :
    ∃ fields, implementors page r = .success (.object fields) ∧
      ∀ {trait : Text}, trait ∈ page.table.traits → isListed trait = true →
        Fields.get? fields trait = some (.list (chosen page flag trait)) := by
  refine ⟨_, by simp only [implementors, hflag, htrait]; rfl, fun hknown hlisted => ?_⟩
  obtain ⟨⟨trait, records⟩, hrow, rfl⟩ := List.mem_map.1 hknown
  rw [chosen, Table.get_of_mem hrow]
  exact Table.get?_rowsToJson hrow hlisted

/-- Without a flag every record is chosen. -/
theorem filter_keeps_none (records : List Implementor) : records.filter (keeps none) = records :=
  List.filter_eq_self.2 fun _ _ => rfl

/-! ### The listing, one trait and the whole table -/

/-- What names hold is said in a refusal. -/
theorem refused_of_isWhole {detail : Text} (h : detail.isWhole = true) (status : Nat) :
    Response.refused status detail =
      ⟨status, .document (.object [("detail", .text detail)])⟩ := by
  refine Response.giving_of_isWhole ?_ status
  simp [Json.isWhole, Json.fieldsWhole, h]

/-- The name of a trait that is listed is a string, for else the list is not given. -/
theorem exists_name_of_traits {entries : List Json}
    (h : traits page = ⟨200, .document (.list entries)⟩) {entry : Json} (hentry : entry ∈ entries) :
    ∃ (name : String) (count : Nat),
      entry = .object [("traitId", .text name), ("implementorCount", .int count)] ∧
      (name : Text) ∈ page.table.traits ∧ (page.table.get name).length = count := by
  obtain ⟨-, hlist, hwhole⟩ := Response.giving_eq_iff.1 h
  obtain rfl := Json.list.inj hlist
  obtain ⟨⟨trait, records⟩, hrow, rfl⟩ := List.mem_map.1 hentry
  have htrait : trait.isWhole = true := by
    have hfields := Json.allWhole_iff.1 hwhole _ hentry
    exact (Json.fieldsWhole_iff.1 hfields _ (List.mem_cons_self ..)).2
  obtain ⟨name, rfl⟩ := Text.isWhole_iff.1 htrait
  exact ⟨name, records.length, rfl, List.mem_map_of_mem hrow, by rw [Table.get_of_mem hrow]⟩

section Whole

variable (hwhole : page.table.toJson.isWhole = true)

include hwhole

/-- The traits of a table without halves of pairs are listed. -/
theorem traits_of_isWhole : ∃ entries, traits page = ⟨200, .document (.list entries)⟩ := by
  refine ⟨_, Response.success_of_isWhole (Json.allWhole_iff.2 (List.forall_mem_map.2 ?_))⟩
  intro row hrow
  have htrait := (Json.isWhole_rowsToJson.1 hwhole row hrow).1
  simp [Json.isWhole, Json.fieldsWhole, htrait]

/-- Its rows are given, whatever records are chosen. -/
theorem implementors_all_of_isWhole (hflag : filter? r = .ok flag)
    (htrait : r.parameter? "trait" = none) :
    ∃ fields, implementors page r = ⟨200, .document (.object fields)⟩ := by
  have hrows : Json.isWhole (Table.rowsToJson
      ((page.table.filterRows (keeps flag)).filter fun row => isListed row.1)) = true := by
    refine Json.isWhole_rowsToJson.2 fun row hrow => ?_
    obtain ⟨row, hstored, rfl⟩ := List.mem_map.1 (List.mem_filter.1 hrow).1
    obtain ⟨hname, hrecords⟩ := Json.isWhole_rowsToJson.1 hwhole row hstored
    exact ⟨hname, fun record hrecord => hrecords record (List.mem_filter.1 hrecord).1⟩
  simp only [implementors, hflag, htrait]
  exact ⟨_, Response.success_of_isWhole hrows⟩

theorem isWhole_of_mem_chosen {trait : Text} {record : Json}
    (h : record ∈ chosen page flag trait) : record.isWhole = true := by
  obtain ⟨x, hx, rfl⟩ := List.mem_map.1 h
  have hget := (List.mem_filter.1 hx).1
  exact (Json.isWhole_table_iff.1 hwhole trait (Table.mem_traits_of_mem_get hget)).2 x hget

end Whole

/-- Three requests to one page: for the list of traits, for one of them, and for the table of all,
    the last two with the same flag. List and table are given at least where no half of a pair
    stands in the table, and none stands in a record then. Where the list is given, an entry of it
    is asked for under its trimmed name. If that is blank the request is refused, and if it is
    unknown nothing is found. Else the records are read that the flag chooses, unless half of a pair
    stands in one of them. They stand in the whole table where that is given and shows the name;
    and of an entry that has no blanks at its ends they are as many as it tells, if there is no
    flag. -/
theorem listed_traits_are_read (page : Page κ) (feed : Feed) (attached : Bool)
    {list one all : Request} {flag : Option Bool} (hlist : Route.find list = .ok .traits)
    (hone : Route.find one = .ok .implementors) (hall : Route.find all = .ok .implementors)
    (hwhole : all.parameter? "trait" = none) (hflag : filter? one = .ok flag)
    (hsame : filter? all = .ok flag) :
    (page.table.toJson.isWhole = true →
      (∃ entries fields,
        plan page feed attached list = (.answer ⟨200, .document (.list entries)⟩, []) ∧
        plan page feed attached all = (.answer ⟨200, .document (.object fields)⟩, [])) ∧
      ∀ trait, ∀ record ∈ chosen page flag trait, record.isWhole = true) ∧
    ∀ entries, plan page feed attached list = (.answer ⟨200, .document (.list entries)⟩, []) →
      ∀ entry ∈ entries, ∃ (name : String) (count : Nat),
        entry = .object [("traitId", .text name), ("implementorCount", .int count)] ∧
        (name : Text) ∈ page.table.traits ∧
        (one.parameter? "trait" = some name →
          (Text.trim name = "" →
            plan page feed attached one =
              (.answer ⟨400, .document
                (.object [("detail", .text "trait cannot be empty")])⟩, [])) ∧
          (Text.trim name ≠ "" → Text.trim name ∉ page.table.traits →
            plan page feed attached one =
              (.answer ⟨404, .document
                (.object [("detail", .text ("Unknown trait: " ++ Text.trim name))])⟩, [])) ∧
          (Text.trim name ≠ "" → Text.trim name ∈ page.table.traits →
            ∃ records, records = chosen page flag (Text.trim name) ∧
              ((∀ record ∈ records, record.isWhole = true) →
                plan page feed attached one = (.answer ⟨200, .document (.list records)⟩, [])) ∧
              (∀ fields, plan page feed attached all =
                  (.answer ⟨200, .document (.object fields)⟩, []) →
                isListed (Text.trim name) = true →
                Fields.get? fields (Text.trim name) = some (.list records)) ∧
              (Text.trim name = name → flag = none → records.length = count))) := by
  refine ⟨fun htable => ⟨?_, fun trait record => isWhole_of_mem_chosen htable⟩, ?_⟩
  · obtain ⟨entries, hentries⟩ := traits_of_isWhole htable
    obtain ⟨fields, hfields⟩ := implementors_all_of_isWhole htable hsame hwhole
    exact ⟨entries, fields, by rw [plan_traits hlist, hentries],
      by rw [plan_implementors hall, hfields]⟩
  intro entries hgiven entry hentry
  rw [plan_traits hlist] at hgiven
  obtain ⟨name, count, rfl, hname, hcount⟩ :=
    exists_name_of_traits (Plan.answer.inj (Prod.mk.inj hgiven).1) hentry
  refine ⟨name, count, rfl, hname,
    fun htrait => ⟨fun hblank => ?_, fun hne hunknown => ?_, fun hne hknown =>
      ⟨_, rfl, fun hrecords => ?_, fun fields hfields hlisted => ?_, fun htrim hnone => ?_⟩⟩⟩
  · rw [plan_implementors hone, implementors_blank hflag htrait hblank,
      refused_of_isWhole (Text.isWhole_ofString _)]
  · rw [plan_implementors hone, implementors_unknown hflag htrait hne hunknown,
      refused_of_isWhole (by simp [Text.isWhole_trim])]
  · have hlist : Json.isWhole (.list (chosen page flag (Text.trim name))) = true :=
      Json.allWhole_iff.2 hrecords
    rw [plan_implementors hone, implementors_one hflag htrait hne hknown,
      Response.success_of_isWhole hlist]
  · obtain ⟨shown, hshown, hget⟩ := implementors_all page hsame hwhole
    rw [plan_implementors hall, hshown] at hfields
    obtain ⟨-, hobject, -⟩ :=
      Response.giving_eq_iff.1 (Plan.answer.inj (Prod.mk.inj hfields).1)
    rw [← Json.object.inj hobject]
    exact hget hknown hlisted
  · rw [hnone, htrim, chosen, filter_keeps_none, List.length_map, hcount]

/-- A request for implementors. -/
def implementorsRequest (query : List (String × String)) : Request :=
  { method := "GET", path := "/api/implementors", query }

/-- Two records of one trait are listed, and both are read. -/
theorem listed_traits_are_read_clone :
    ∃ fields records,
      plan ({ table := .single "Clone" [{}, { isSynthetic := true }] } : Page Unit) {} true
        (implementorsRequest []) = (.answer ⟨200, .document (.object fields)⟩, []) ∧
      plan ({ table := .single "Clone" [{}, { isSynthetic := true }] } : Page Unit) {} true
        (implementorsRequest [("trait", "Clone")]) =
          (.answer ⟨200, .document (.list records)⟩, []) ∧
      Fields.get? fields "Clone" = some (.list records) ∧ records.length = 2 := by
  let page : Page Unit := { table := .single "Clone" [{}, { isSynthetic := true }] }
  have htraits : Route.find { method := "GET", path := "/api/traits" } = .ok .traits := rfl
  have hone : Route.find (implementorsRequest [("trait", "Clone")]) = .ok .implementors := rfl
  have hall : Route.find (implementorsRequest []) = .ok .implementors := rfl
  have hgiven : plan page {} true { method := "GET", path := "/api/traits" } =
      (.answer ⟨200, .document (.list
        [.object [("traitId", .text "Clone"), ("implementorCount", .int 2)]])⟩, []) := by
    have htold : traits page = _ := Response.success_of_isWhole rfl
    rw [plan_traits htraits, htold]
    rfl
  obtain ⟨name, count, hentry, hknown, hanswers⟩ := (listed_traits_are_read page {} true htraits
    hone hall rfl rfl rfl).2 _ hgiven _ (List.mem_cons_self ..)
  simp only [Json.object.injEq, List.cons.injEq, Prod.mk.injEq, Json.text.injEq, Text.ofString_inj,
    Json.int.injEq] at hentry
  obtain ⟨⟨-, rfl⟩, ⟨-, hcount⟩, -⟩ := hentry
  have htrim : Text.trim "Clone" = ("Clone" : Text) := by decide
  have hne : ("Clone" : Text) ≠ "" := by decide
  rw [htrim] at hanswers
  obtain ⟨records, hchosen, hrecords, hfields, hlength⟩ := (hanswers rfl).2.2 hne hknown
  have hwhole : ∀ record ∈ records, record.isWhole = true := by
    rw [hchosen]
    exact Json.allWhole_iff.1 rfl
  have hshown : plan page {} true (implementorsRequest []) =
      (.answer ⟨200, .document (.object [("Clone", .list records)])⟩, []) := by
    have htold : implementors page (implementorsRequest []) = _ := Response.success_of_isWhole rfl
    rw [plan_implementors hall, htold, hchosen]
    rfl
  exact ⟨_, records, hshown, hrecords hwhole, hfields _ hshown rfl,
    (hlength rfl rfl).trans (Int.ofNat.inj hcount).symm⟩

/-- A batch may have a blank name for a trait, which is then listed and refused. -/
theorem blank_trait_is_listed_and_refused :
    ∃ page : Page Unit, (Page.contribute {} (.single " " [])) = .ok (page, none) ∧
      plan page {} false { method := "GET", path := "/api/traits" } =
        (.answer ⟨200, .document (.list
          [.object [("traitId", .text " "), ("implementorCount", .int 0)]])⟩, []) ∧
      plan page {} false (implementorsRequest [("trait", " ")]) =
        (.answer ⟨400, .document (.object [("detail", .text "trait cannot be empty")])⟩, []) := by
  refine ⟨_, rfl, ?_, ?_⟩
  · have htold : traits ({ table := .single " " [] } : Page Unit) = _ :=
      Response.success_of_isWhole rfl
    rw [plan_traits rfl]
    exact congrArg (fun r => (Plan.answer r, [])) htold
  · rw [plan_implementors rfl, implementors_blank rfl rfl (by decide),
      refused_of_isWhole (Text.isWhole_ofString _)]

end Api
end TraitIndex
