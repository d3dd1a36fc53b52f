import DocSchema.Extraction.Walk
import DocSchema.Proofs.Merge.NameRequest

/-!
# Objects that are refused a name

The context of a nested type is changed by the objects that ask for its name on behalf of the path it
was registered for, and by no other. An object that asks on behalf of another path is refused, and its
fields play no part: any other fields in their place give the same state.

- `registered?`: the context that a name has, or is given by the first request for it.
- `Contributed`: what the requests of a merge do to the nested contexts.
- `ignoreRefused`: a document with other fields in the objects that are refused.
- `refused_isolated`: both halves of the property.
-/

namespace DocSchema

/-- A context after some objects of its type have been counted: of the fields of the context, those may
have changed that some of the objects have, and those that are free to change anyway. -/
structure TypeContext.Counted (free : List String) (c : TypeContext) (objects : List ObjectSample)
    (d : TypeContext) : Prop where
  name : d.name = c.name
  path : d.path = c.path
  parent : d.parent? = c.parent?
  observations : d.observations = c.observations + objects.length
  populated : d.populated = (c.populated || !objects.isEmpty)
  fields : ∀ k, k ∉ free → (∀ o ∈ objects, k ∉ o.keys) → d.fields.get? k = c.fields.get? k
  unchanged : free = [] → objects = [] → d = c

namespace TypeContext.Counted

variable {free free' : List String} {c d e : TypeContext} {objects objects' : List ObjectSample}

theorem refl (free : List String) (c : TypeContext) : Counted free c [] c :=
  ⟨rfl, rfl, rfl, rfl, (Bool.or_false _).symm, fun _ _ _ => rfl, fun _ _ => rfl⟩

theorem trans (h : Counted free c objects d) (h' : Counted free' d objects' e)
    (hfree : ∀ k ∈ free', k ∈ free ∨ ∃ o ∈ objects, k ∈ o.keys) : Counted free c (objects ++ objects') e where
  name := h'.name.trans h.name
  path := h'.path.trans h.path
  parent := h'.parent.trans h.parent
  observations := by rw [h'.observations, h.observations, List.length_append, Nat.add_assoc]
  populated := by
    rw [h'.populated, h.populated, Bool.or_assoc]
    cases objects <;> rfl
  fields k hk hobjects := by
    have hk' : k ∉ free' := fun hin => (hfree k hin).elim hk fun ⟨o, ho, hko⟩ =>
      hobjects o (List.mem_append_left _ ho) hko
    rw [h'.fields k hk' fun o ho => hobjects o (List.mem_append_right _ ho),
      h.fields k hk fun o ho => hobjects o (List.mem_append_left _ ho)]
  unchanged hnil hobjects := by
    obtain ⟨rfl, rfl⟩ := List.append_eq_nil_iff.1 hobjects
    have hnil' : free' = [] := List.eq_nil_iff_forall_not_mem.2 fun k hk =>
      (hfree k hk).elim (by simp [hnil]) (by simp)
    rw [h'.unchanged hnil' rfl, h.unchanged hnil rfl]

theorem mono (h : Counted free c objects d) (hfree : free ⊆ free') : Counted free' c objects d :=
  (refl free' c).trans h fun _ hk => .inl (hfree hk)

theorem updateField {key : String} (hkey : key ∈ free) (c : TypeContext) (path : String)
    (f : FieldStats → FieldStats) : Counted free c [] (c.updateField key path f) where
  name := rfl
  path := rfl
  parent := rfl
  observations := rfl
  populated := (Bool.or_false _).symm
  fields k hk _ := by
    have hne : k ≠ key := fun h => hk (h ▸ hkey)
    rw [TypeContext.updateField, Table.get?_upsert, if_neg hne]
  unchanged hnil := by
    rw [hnil] at hkey
    cases hkey

theorem observe (free : List String) (c : TypeContext) (o : ObjectSample) :
    Counted free c [o] (c.observe true) :=
  ⟨rfl, rfl, rfl, rfl, rfl, fun _ _ _ => rfl, fun _ h => by cases h⟩

end TypeContext.Counted

namespace Schema

/-- The context that the first object to ask for a name is given. -/
def NameRequest.context (x : NameRequest) : TypeContext where
  name := x.typeName
  path := x.path
  parent? := some x.parent

/-- The objects that ask for a name on behalf of a path. -/
def objectsFor (typeName path : String) (l : List NameRequest) : List ObjectSample :=
  (l.filter fun x => x.typeName = typeName ∧ x.path = path).map NameRequest.object

/-- The context that a name has in a state, or is given by the first of some requests for it. -/
def registered? (a : Accumulator) (l : List NameRequest) (typeName : String) : Option TypeContext :=
  (a.context? (.nested typeName)).or ((l.find? fun x => x.typeName = typeName).map NameRequest.context)

/-- What requests do to the nested contexts: a name has a context afterwards if it had one before or was
asked for; the objects that asked for it on behalf of the path of the context, all of which have fields,
are counted in it; and they are the ones that are granted the name. Some fields of a context may be free
to change anyway. -/
structure Contributed (free : String → List String) (a : Accumulator) (l : List NameRequest)
    (b : Accumulator) : Prop where
  populated : ∀ x ∈ l, x.object.isEmpty = false
  absent : ∀ n, registered? a l n = none → b.context? (.nested n) = none
  counted : ∀ n c, registered? a l n = some c →
    ∃ d, b.context? (.nested n) = some d ∧ c.Counted (free n) (objectsFor n c.path l) d
  answered : ∀ x ∈ l, ∃ c, registered? a l x.typeName = some c ∧ (x.granted = true ↔ c.path = x.path)

section Registered

variable {a b : Accumulator} {l l' : List NameRequest} {n : String} {c : TypeContext}

theorem registered?_nil (a : Accumulator) (n : String) : registered? a [] n = a.context? (.nested n) := by
  rw [registered?, List.find?_nil, Option.map_none, Option.or_none]

theorem registered?_append_of_some (h : registered? a l n = some c) (l' : List NameRequest) :
    registered? a (l ++ l') n = some c := by
  rw [registered?] at h ⊢
  cases hc : a.context? (.nested n) with
  | some d => simpa [hc] using h
  | none =>
    rw [hc, Option.none_or, Option.map_eq_some_iff] at h
    obtain ⟨x, hx, rfl⟩ := h
    simp [hx]

theorem registered?_single (a : Accumulator) (x : NameRequest) (n : String) :
    registered? a [x] n =
      if n = x.typeName then some ((a.context? (.nested n)).getD x.context)
      else a.context? (.nested n) := by
  rw [registered?]
  by_cases hn : n = x.typeName
  · subst hn
    cases a.context? (.nested x.typeName) <;> simp
  · have hn' : ¬ x.typeName = n := fun h => hn h.symm
    simp [hn, hn']

theorem objectsFor_append (n path : String) (l l' : List NameRequest) :
    objectsFor n path (l ++ l') = objectsFor n path l ++ objectsFor n path l' := by
  rw [objectsFor, List.filter_append, List.map_append, objectsFor, objectsFor]

theorem objectsFor_single_self {x : NameRequest} {path : String} (h : x.path = path) :
    objectsFor x.typeName path [x] = [x.object] := by
  simp [objectsFor, h]

theorem objectsFor_single_of_ne {x : NameRequest} {path : String}
    (h : ¬ (x.typeName = n ∧ x.path = path)) : objectsFor n path [x] = [] := by
  simp [objectsFor, h]

/-- A name that has no context was not asked for. -/
theorem objectsFor_of_none (h : registered? a l n = none) (path : String) : objectsFor n path l = [] := by
  rw [registered?, Option.or_eq_none_iff, Option.map_eq_none_iff, List.find?_eq_none] at h
  rw [objectsFor, List.map_eq_nil_iff, List.filter_eq_nil_iff]
  intro x hx
  have hne := h.2 x hx
  simp only [decide_eq_true_eq] at hne ⊢
  exact fun hand => hne hand.1

theorem registered?_append_of_none (h : registered? a l n = none) (hb : b.context? (.nested n) = none)
    (l' : List NameRequest) : registered? a (l ++ l') n = registered? b l' n := by
  rw [registered?, Option.or_eq_none_iff, Option.map_eq_none_iff] at h
  simp [registered?, h.1, h.2, hb]

end Registered

namespace Contributed

variable {free free' : String → List String} {a b c : Accumulator} {l l' : List NameRequest}

/-- A context that has changed in fields that are free to change. -/
theorem of_contexts
    (habsent : ∀ n, a.context? (.nested n) = none → b.context? (.nested n) = none)
    (hcounted : ∀ n c, a.context? (.nested n) = some c →
      ∃ d, b.context? (.nested n) = some d ∧ c.Counted (free n) [] d) : Contributed free a [] b where
  populated := by simp
  absent n h := habsent n (by rwa [registered?_nil] at h)
  counted n c h := hcounted n c (by rwa [registered?_nil] at h)
  answered := by simp

theorem of_same (h : ∀ n, b.context? (.nested n) = a.context? (.nested n)) : Contributed free a [] b :=
  of_contexts (fun n hn => (h n).trans hn) fun n c hc => ⟨c, (h n).trans hc, .refl _ c⟩

theorem congr (h : Contributed free a l b) (hsame : ∀ n, c.context? (.nested n) = b.context? (.nested n)) :
    Contributed free a l c where
  populated := h.populated
  absent n hn := (hsame n).trans (h.absent n hn)
  counted n r hr := hsame n ▸ h.counted n r hr
  answered := h.answered

/-- What some requests do, and then others. The fields that are free to change during the others are free
to change all along, or have been seen in an object that was counted before. -/
theorem append (h : Contributed free a l b) (h' : Contributed free' b l' c)
    (hfree : ∀ n, ∀ k ∈ free' n, k ∈ free n ∨
      ∃ r, registered? a l n = some r ∧ ∃ o ∈ objectsFor n r.path l, k ∈ o.keys) :
    Contributed free a (l ++ l') c where
  populated x hx := (List.mem_append.1 hx).elim (h.populated x) (h'.populated x)
  absent n hn := by
    cases hr : registered? a l n with
    | some r =>
      rw [registered?_append_of_some hr] at hn
      cases hn
    | none =>
      have hb := h.absent n hr
      rw [registered?_append_of_none hr hb] at hn
      exact h'.absent n hn
  counted n r hn := by
    rw [objectsFor_append]
    cases hr : registered? a l n with
    | some r' =>
      rw [registered?_append_of_some hr, Option.some.injEq] at hn
      subst hn
      obtain ⟨d, hd, hcounted⟩ := h.counted n _ hr
      obtain ⟨e, he, hcounted'⟩ := h'.counted n d (by rw [registered?, hd, Option.some_or])
      rw [hcounted.path] at hcounted'
      refine ⟨e, he, hcounted.trans hcounted' fun k hk => (hfree n k hk).imp_right ?_⟩
      rintro ⟨_, hr', ho⟩
      rw [hr, Option.some.injEq] at hr'
      exact hr' ▸ ho
    | none =>
      have hb := h.absent n hr
      rw [registered?_append_of_none hr hb] at hn
      obtain ⟨e, he, hcounted⟩ := h'.counted n r hn
      refine ⟨e, he, (objectsFor_of_none hr _).symm ▸ hcounted.mono fun k hk => ?_⟩
      exact (hfree n k hk).resolve_right fun ⟨_, hr', _⟩ => by simp [hr] at hr'
  answered x hx := by
    rcases List.mem_append.1 hx with hx | hx
    · obtain ⟨r, hr, hgranted⟩ := h.answered x hx
      exact ⟨r, registered?_append_of_some hr l', hgranted⟩
    · obtain ⟨r, hr, hgranted⟩ := h'.answered x hx
      cases hr' : registered? a l x.typeName with
      | some r' =>
        obtain ⟨d, hd, hcounted⟩ := h.counted _ _ hr'
        rw [registered?, hd, Option.some_or, Option.some.injEq] at hr
        subst hr
        exact ⟨r', registered?_append_of_some hr' l', hcounted.path ▸ hgranted⟩
      | none => exact ⟨r, by rwa [registered?_append_of_none hr' (h.absent _ hr')], hgranted⟩

end Contributed

/-- The fields of the contexts that are free to change while an object of an owner is merged: those of the
object. -/
def freeFor (owner : Owner) (keys : List String) (n : String) : List String :=
  if owner = .nested n then keys else []

section Steps

variable {a b : Accumulator} {owner : Owner} {keys : List String} {key : String}

theorem contributed_update (hkey : key ∈ keys) {path : String} {f : FieldStats → FieldStats}
    (h : ∀ o, b.context? o = (a.modifyContext owner fun c => c.updateField key path f).context? o) :
    Contributed (freeFor owner keys) a [] b := by
  refine .of_contexts (fun n hn => ?_) fun n c hc => ?_
  · rw [h, Accumulator.context?_modifyContext]
    split
    · rename_i ho
      rw [← ho, hn, Option.map_none]
    · exact hn
  · rw [h, Accumulator.context?_modifyContext]
    split
    · rename_i ho
      subst ho
      rw [hc]
      exact ⟨_, rfl, .updateField (by rwa [freeFor, if_pos rfl]) c path f⟩
    · exact ⟨c, hc, .refl _ c⟩

/-- A request changes the context of the name that is asked for, if it is granted, and no other. -/
theorem contributed_request {x : NameRequest} (free : String → List String)
    (hpopulated : x.object.isEmpty = false)
    (hcontext : ∀ n, b.context? (.nested n) =
      if n = x.typeName then
        let c := (a.context? (.nested n)).getD x.context
        some (if x.granted then c.observe true else c)
      else a.context? (.nested n))
    (hgranted : x.granted = true ↔ ((a.context? (.nested x.typeName)).getD x.context).path = x.path) :
    Contributed free a [x] b where
  populated y hy := List.mem_singleton.1 hy ▸ hpopulated
  absent n hn := by
    rw [registered?_single] at hn
    rw [hcontext]
    split at hn
    · cases hn
    · rename_i hne
      rwa [if_neg hne]
  counted n c hc := by
    rw [registered?_single] at hc
    rw [hcontext]
    split at hc
    · rename_i hn
      subst hn
      rw [Option.some.injEq] at hc
      subst hc
      rw [if_pos rfl]
      refine ⟨_, rfl, ?_⟩
      cases hx : x.granted with
      | true =>
        rw [objectsFor_single_self (hgranted.1 hx).symm]
        exact .observe _ _ x.object
      | false =>
        rw [objectsFor_single_of_ne fun h => Bool.eq_false_iff.1 hx (hgranted.2 h.2.symm)]
        exact .refl _ _
    · rename_i hn
      rw [if_neg hn, objectsFor_single_of_ne fun h => hn h.1.symm]
      exact ⟨c, hc, .refl _ c⟩
  answered y hy := by
    rw [List.mem_singleton.1 hy, registered?_single, if_pos rfl]
    exact ⟨_, rfl, hgranted⟩

/-- An object with fields is noted in a field of the owner, and then asks for the name of its type. -/
theorem contributed_nested (hkey : key ∈ keys) {object : ObjectSample} (hobject : object.isEmpty = false) :
    Contributed (freeFor owner keys) a [requestOf a owner key object]
      ((Event.nested owner key).apply a) := by
  generalize hx : requestOf a owner key object = x
  have hpopulated : x.object.isEmpty = false := hx ▸ hobject
  let noted := a.modifyContext owner fun c => c.updateField key x.path (·.seeNested x.typeName)
  have happly : (Event.nested owner key).apply a =
      let claimed := (noted.claim x.typeName x.path x.parent).1
      if x.granted then claimed.modifyContext (.nested x.typeName) (·.observe true) else claimed := by
    subst hx
    rfl
  have hgranted : x.granted = (noted.claim x.typeName x.path x.parent).2 := by
    subst hx
    rfl
  have hnoted : Contributed (freeFor owner keys) a [] noted := contributed_update hkey fun _ => rfl
  suffices hrequest : Contributed (freeFor owner keys) noted [x] ((Event.nested owner key).apply a) from
    hnoted.append hrequest fun _ _ hk => .inl hk
  refine contributed_request _ hpopulated (fun n => ?_) ?_
  · have hclaim := noted.context?_claim (.nested n) x.path x.typeName x.parent
    simp only [Owner.nested.injEq] at hclaim
    rw [happly]
    cases x.granted with
    | false =>
      rw [if_neg Bool.false_ne_true, hclaim]
      rfl
    | true =>
      simp only [if_true, Accumulator.context?_modifyContext, Owner.nested.injEq]
      split
      · rename_i hn
        subst hn
        rw [hclaim, if_pos rfl]
        rfl
      · rename_i hn
        rw [hclaim, if_neg hn]
  · rw [hgranted, Accumulator.claim_granted_iff]
    change (∀ c, noted.context? (.nested x.typeName) = some c → _) ↔ _
    cases noted.context? (.nested x.typeName) with
    | none => simp [NameRequest.context]
    | some c => simp

end Steps

/-- Every step of a merge changes a nested context through the objects that are counted in it, or through
the fields of the object that is being merged. -/
theorem followed_contributed : Followed fun owner keys => Contributed (freeFor owner keys) where
  stay owner keys a := .of_same fun _ => rfl
  trans h h' := h.append h' fun _ _ hk => .inl hk
  field a path isNull isArray kinds hkey := contributed_update hkey fun _ => rfl
  empty a hkey := contributed_update hkey fun o => by cases o <;> rfl
  nested a object hkey hobject := contributed_nested hkey hobject
  granted {owner keys a b c x l} h hgranted h' := by
    -- the fields of an object that is granted its name are those of an object that was counted
    refine h.append (l := [x]) h' fun n k hk => .inr ?_
    obtain ⟨r, hr, hpath⟩ := h.answered x List.mem_cons_self
    rw [freeFor] at hk
    split at hk
    · rename_i hn
      obtain rfl := Owner.nested.inj hn
      refine ⟨r, hr, x.object, ?_, hk⟩
      rw [objectsFor_single_self (hpath.1 hgranted).symm]
      exact List.mem_cons_self
    · cases hk
  document keys a populated := .of_same fun _ => rfl
  finish keys a := .of_same fun _ => rfl
  record keys a path := .of_same fun _ => rfl

/-- A merge changes the nested contexts through the objects that are counted in them, and not otherwise. -/
theorem contributed_mergeDocument (detect : Bool) (e : Extracted) (a : Accumulator) :
    Contributed (fun _ => []) a (requests detect e a) (mergeDocument detect e a).state := by
  have hfree : freeFor .root e.root.keys = fun _ => [] := funext fun n => if_neg Owner.noConfusion
  exact hfree ▸ followed_contributed.mergeDocument e a

/-! ## Other fields in the objects that are refused -/

section Ignoring

variable (detect : Bool) (content : ObjectSample → List FieldSample)

mutual
/-- Fields of an owner, with other fields in the objects that are refused a name. -/
def ignoreInFields (owner : Owner) : List FieldSample → Accumulator → List FieldSample
  | [], _ => []
  | f :: fields, a =>
    ignoreInField owner f a :: (mergeField detect owner f a).elim fields (ignoreInFields owner fields)
/-- A field of an owner, with other fields in the objects that are refused a name. -/
def ignoreInField (owner : Owner) : FieldSample → Accumulator → FieldSample
  | .mk key path kind leaves objects, a =>
    .mk key path kind leaves
      (if opens detect (.mk key path kind leaves objects) then
        ignoreInObjects owner key objects
          ((seenEvent detect owner (.mk key path kind leaves objects)).apply a)
      else objects)
/-- Objects in a field of an owner, with other fields in those that are refused a name. -/
def ignoreInObjects (owner : Owner) (key : String) : List ObjectSample → Accumulator → List ObjectSample
  | [], _ => []
  | object :: objects, a =>
    ignoreInObject owner key object a ::
      (mergeOne detect owner key object a).elim objects (ignoreInObjects owner key objects)
/-- An object in a field of an owner, with other fields if it is refused a name. -/
def ignoreInObject (owner : Owner) (key : String) : ObjectSample → Accumulator → ObjectSample
  | .mk path fields, a =>
    .mk path
      (if fields.isEmpty then fields
        else if (enter a owner key).2 then
          ignoreInFields (.nested (requestOf a owner key (.mk path fields)).typeName) fields
            ((Event.nested owner key).apply a)
        else content (.mk path fields))
end

/-- A document, with other fields in the objects that are refused a name when it is merged. -/
def ignoreRefused (e : Extracted) (a : Accumulator) : Extracted :=
  { e with
    root := .mk e.root.path
      (ignoreInFields detect content .root e.root.fields ((Event.document !e.root.isEmpty).apply a)) }

/-- A request, with other fields in its object. -/
def NameRequest.withContent (x : NameRequest) : NameRequest :=
  { x with object := .mk x.object.path (content x.object) }

/-- The requests that are refused. -/
def refusedOf (l : List NameRequest) : List NameRequest :=
  l.filter fun x => !x.granted

variable {detect content} {a : Accumulator}

theorem andThen_elim {α : Type} (merge : α → Accumulator → Merging) {rest : α} {after : Accumulator → α}
    (m : Merging) (h : ∀ b, merge (after b) b = merge rest b) :
    m.andThen (merge (m.elim rest after)) = m.andThen (merge rest) := by
  rw [Merging.andThen, Merging.andThen, Merging.elim]
  cases m.fault? with
  | none => exact h m.state
  | some fault => rfl

theorem isEmpty_ignoreInFields (owner : Owner) (fields : List FieldSample) (a : Accumulator) :
    (ignoreInFields detect content owner fields a).isEmpty = fields.isEmpty := by
  cases fields with
  | nil => rw [ignoreInFields]
  | cons field fields =>
    rw [ignoreInFields]
    rfl

theorem isEmpty_ignoreInObject (hcontent : ∀ o, content o ≠ []) (owner : Owner) (key : String)
    (object : ObjectSample) (a : Accumulator) :
    (ignoreInObject detect content owner key object a).isEmpty = object.isEmpty := by
  obtain ⟨path, fields⟩ := object
  rw [ignoreInObject, ObjectSample.isEmpty, ObjectSample.isEmpty, ObjectSample.fields, ObjectSample.fields]
  cases hempty : fields.isEmpty <;> cases (enter a owner key).2 <;>
    simp [hempty, isEmpty_ignoreInFields, hcontent]

/-! What is ignored is ignored by the merge. -/

mutual
theorem mergeFields_ignore (hcontent : ∀ o, content o ≠ []) (owner : Owner) :
    ∀ (fields : List FieldSample) (a : Accumulator),
    mergeFields detect owner (ignoreInFields detect content owner fields a) a =
      mergeFields detect owner fields a
  | [], a => by rw [ignoreInFields]
  | f :: fields, a => by
    rw [ignoreInFields, mergeFields_cons, mergeFields_cons, mergeField_ignore hcontent owner f a]
    exact andThen_elim (mergeFields detect owner) _ (mergeFields_ignore hcontent owner fields)
theorem mergeField_ignore (hcontent : ∀ o, content o ≠ []) (owner : Owner) :
    ∀ (f : FieldSample) (a : Accumulator),
    mergeField detect owner (ignoreInField detect content owner f a) a = mergeField detect owner f a
  | .mk key path kind leaves objects, a => by
    rw [ignoreInField]
    split
    · rename_i hopens
      rw [mergeField_opens (.mk key path kind leaves objects), if_pos hopens]
      refine (mergeField_opens _ _).trans (.trans (if_pos hopens) ?_)
      exact mergeNested_ignore hcontent owner key objects _
    · rfl
theorem mergeNested_ignore (hcontent : ∀ o, content o ≠ []) (owner : Owner) (key : String) :
    ∀ (objects : List ObjectSample) (a : Accumulator),
    mergeNested detect owner key (ignoreInObjects detect content owner key objects a) a =
      mergeNested detect owner key objects a
  | [], a => by rw [ignoreInObjects]
  | object :: objects, a => by
    rw [ignoreInObjects, mergeNested_one, mergeNested_one, mergeOne_ignore hcontent owner key object a]
    exact andThen_elim (mergeNested detect owner key) _
      (mergeNested_ignore hcontent owner key objects)
theorem mergeOne_ignore (hcontent : ∀ o, content o ≠ []) (owner : Owner) (key : String) :
    ∀ (object : ObjectSample) (a : Accumulator),
    mergeOne detect owner key (ignoreInObject detect content owner key object a) a =
      mergeOne detect owner key object a
  | .mk path fields, a => by
    rw [mergeOne, mergeOne, isEmpty_ignoreInObject hcontent]
    split
    · rfl
    · rename_i hempty
      have hfields : ¬ fields.isEmpty = true := hempty
      split
      · rename_i hgranted
        rw [ignoreInObject, if_neg hfields, if_pos hgranted]
        exact mergeFields_ignore hcontent _ fields _
      · rfl
end

theorem refusedOf_append (l l' : List NameRequest) : refusedOf (l ++ l') = refusedOf l ++ refusedOf l' :=
  List.filter_append ..

theorem refusedOf_elim {α : Type} (asked : α → Accumulator → List NameRequest) {rest : α}
    {after : Accumulator → α} (m : Merging)
    (h : ∀ b, refusedOf (asked (after b) b) = (refusedOf (asked rest b)).map (·.withContent content)) :
    refusedOf (m.elim [] (asked (m.elim rest after))) =
      (refusedOf (m.elim [] (asked rest))).map (·.withContent content) := by
  rw [Merging.elim, Merging.elim, Merging.elim]
  cases m.fault? with
  | none => exact h m.state
  | some fault => rfl

/-! The objects that are refused are the same, with other fields. -/

mutual
theorem requestsOfFields_ignore (hcontent : ∀ o, content o ≠ []) (owner : Owner) :
    ∀ (fields : List FieldSample) (a : Accumulator),
    refusedOf (requestsOfFields detect owner (ignoreInFields detect content owner fields a) a) =
      (refusedOf (requestsOfFields detect owner fields a)).map (·.withContent content)
  | [], a => by
    rw [ignoreInFields, requestsOfFields]
    rfl
  | f :: fields, a => by
    rw [ignoreInFields, requestsOfFields, requestsOfFields, mergeField_ignore hcontent owner f a,
      refusedOf_append, refusedOf_append, List.map_append, requestsOfField_ignore hcontent owner f a]
    rw [refusedOf_elim (requestsOfFields detect owner) _
      (requestsOfFields_ignore hcontent owner fields)]
theorem requestsOfField_ignore (hcontent : ∀ o, content o ≠ []) (owner : Owner) :
    ∀ (f : FieldSample) (a : Accumulator),
    refusedOf (requestsOfField detect owner (ignoreInField detect content owner f a) a) =
      (refusedOf (requestsOfField detect owner f a)).map (·.withContent content)
  | .mk key path kind leaves objects, a => by
    rw [ignoreInField]
    split
    · rename_i hopens
      have hopens' (objects' : List ObjectSample) :
          opens detect (.mk key path kind leaves objects') = true := hopens
      rw [requestsOfField, requestsOfField, if_pos (hopens' _), if_pos hopens]
      exact requestsOfObjects_ignore hcontent owner key objects _
    · rename_i hopens
      rw [requestsOfField, if_neg hopens]
      rfl
theorem requestsOfObjects_ignore (hcontent : ∀ o, content o ≠ []) (owner : Owner) (key : String) :
    ∀ (objects : List ObjectSample) (a : Accumulator),
    refusedOf (requestsOfObjects detect owner key (ignoreInObjects detect content owner key objects a) a) =
      (refusedOf (requestsOfObjects detect owner key objects a)).map (·.withContent content)
  | [], a => by
    rw [ignoreInObjects, requestsOfObjects]
    rfl
  | object :: objects, a => by
    rw [ignoreInObjects, requestsOfObjects, requestsOfObjects, mergeOne_ignore hcontent owner key object a,
      refusedOf_append, refusedOf_append, List.map_append,
      requestsOfObject_ignore hcontent owner key object a]
    rw [refusedOf_elim (requestsOfObjects detect owner key) _
      (requestsOfObjects_ignore hcontent owner key objects)]
theorem requestsOfObject_ignore (hcontent : ∀ o, content o ≠ []) (owner : Owner) (key : String) :
    ∀ (object : ObjectSample) (a : Accumulator),
    refusedOf (requestsOfObject detect owner key (ignoreInObject detect content owner key object a) a) =
      (refusedOf (requestsOfObject detect owner key object a)).map (·.withContent content)
  | .mk path fields, a => by
    have hignored : (ignoreInObject detect content owner key (.mk path fields) a).isEmpty = _ :=
      isEmpty_ignoreInObject hcontent owner key (.mk path fields) a
    rw [ignoreInObject, ObjectSample.isEmpty, ObjectSample.isEmpty, ObjectSample.fields,
      ObjectSample.fields] at hignored
    rw [ignoreInObject, requestsOfObject, requestsOfObject, hignored]
    cases hempty : fields.isEmpty with
    | true => rfl
    | false =>
      simp only [Bool.false_eq_true, if_false]
      cases hgranted : (enter a owner key).2 with
      | true =>
        have hrest := requestsOfFields_ignore hcontent
          (.nested (requestOf a owner key (.mk path fields)).typeName) fields
          ((Event.nested owner key).apply a)
        simpa [refusedOf, requestOf, hgranted] using hrest
      | false => simp [refusedOf, requestOf, hgranted, NameRequest.withContent, ObjectSample.path]
end

/-- **Objects that are refused a name are isolated.** Whatever a document shows and whatever the state is
that it is merged into, also if the merge stops at a leaf: a nested context changes only through objects
with fields that ask for its name on behalf of the path that it was registered for. It counts each of
them, of its fields only those change that one of them has, and without any it stays as it is. An object
that asks on behalf of another path is refused, and the merge of the document is that of the document
with any other fields in the objects that are refused. -/
theorem refused_isolated (detect : Bool) (content : ObjectSample → List FieldSample)
    (hcontent : ∀ o, content o ≠ []) (e : Extracted) (a : Accumulator) :
    Contributed (fun _ => []) a (requests detect e a) (mergeDocument detect e a).state ∧
    mergeDocument detect (ignoreRefused detect content e a) a = mergeDocument detect e a ∧
    refusedOf (requests detect (ignoreRefused detect content e a) a) =
      (refusedOf (requests detect e a)).map (·.withContent content) := by
  have hempty : (ignoreRefused detect content e a).root.isEmpty = e.root.isEmpty :=
    isEmpty_ignoreInFields ..
  refine ⟨contributed_mergeDocument detect e a, ?_, ?_⟩
  · obtain ⟨⟨path, fields⟩, paths⟩ := e
    have hroot : mergeObject detect .root (ignoreRefused detect content ⟨.mk path fields, paths⟩ a).root a =
        mergeObject detect .root (.mk path fields) a := by
      rw [ignoreRefused, mergeObject, mergeObject, isEmpty_ignoreInFields]
      exact mergeFields_ignore hcontent .root fields _
    rw [mergeDocument, mergeDocument, hroot]
    rfl
  · rw [requests, requests, hempty]
    exact requestsOfFields_ignore hcontent .root e.root.fields _

/-- Two fields whose objects have types of one name, the second of them in an array and with an object
inside. -/
theorem refused_isolated_array :
    let document : Value := .map [("a-b", .map [("x", .int 1)]),
      ("a_b", .sequence [.map [("y", .int 1), ("z", .map [("w", .int 1)])]])]
    let a := Accumulator.fresh "c" "C"
    let content : ObjectSample → List FieldSample := fun _ => [.mk "v" "v" .null [] []]
    ∃ e, Extraction.extract {} document = .ok e ∧
      (requests true e a).map (fun x => (x.typeName, x.path, x.granted)) =
        [("CAB", "a-b", true), ("CAB", "a_b", false)] ∧
      Contributed (fun _ => []) a (requests true e a) (mergeDocument true e a).state ∧
      mergeDocument true (ignoreRefused true content e a) a = mergeDocument true e a := by
  intro document a content
  have h e := refused_isolated true content (fun _ => List.cons_ne_nil _ _) e a
  exact ⟨_, rfl, by decide +kernel, (h _).1, (h _).2.1⟩

end Ignoring

end Schema

end DocSchema
