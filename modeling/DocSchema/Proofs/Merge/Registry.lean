import DocSchema.Proofs.Merge.Refusal

/-!
# Names that are taken and names that are refused

Whatever is done to a state, a name that has been given to a path stays with it, and what was refused is
listed: each name and path once, in the order in which they were refused first, whether a name was asked
for by itself or by an object somewhere in a document.

- `Operation`, `Operation.refusals`: what can be done to a state, and what is refused then.
- `Extends`: contexts stay, under the name, path and parent they had, and others may come.
- `Listed`: what was refused is what is listed.
- `Logged`, `followed_logged`: what a step, a merge and an operation keep of both.
- `registry_and_log`: both, after any operations.
-/

namespace DocSchema

/-- The name and the path that were refused. -/
def Collision.refusal (d : Collision) : String × String :=
  (d.typeName, d.collidingPath)

namespace Schema

/-- The name and the path of a request. -/
def NameRequest.refusal (x : NameRequest) : String × String :=
  (x.typeName, x.path)

/-- What can be done to the state of a run. -/
inductive Operation
  /-- The name of a nested type is asked for on behalf of a path. -/
  | claim (typeName path parent : String)
  /-- A document is merged, as far as it can be. -/
  | merge (detect : Bool) (e : Extracted)
  /-- An object without fields is counted. -/
  | recordEmptyInstance (path : String)
  /-- Paths are recorded. -/
  | recordPaths (paths : List String)

namespace Operation

/-- The state after an operation. -/
def apply (a : Accumulator) : Operation → Accumulator
  | .claim typeName path parent => (a.claim typeName path parent).1
  | .merge detect e => (mergeDocument detect e a).state
  | .recordEmptyInstance path => a.recordEmptyInstance path
  | .recordPaths paths => a.recordPaths paths

/-- The names and paths that an operation is refused, in the order in which it asks for them. -/
def refusals (a : Accumulator) : Operation → List (String × String)
  | .claim typeName path parent => if (a.claim typeName path parent).2 then [] else [(typeName, path)]
  | .merge detect e => (refusedOf (requests detect e a)).map NameRequest.refusal
  | .recordEmptyInstance _ | .recordPaths _ => []

end Operation

/-- The state after some operations. -/
def applyAll (ops : List Operation) (a : Accumulator) : Accumulator :=
  ops.foldl Operation.apply a

/-- The names and paths that some operations are refused, in order and with repetitions. -/
def refusals : List Operation → Accumulator → List (String × String)
  | [], _ => []
  | op :: ops, a => op.refusals a ++ refusals ops (op.apply a)

/-- Contexts stay, under the name, the path and the parent they had; others may have come. -/
def Extends (a b : Accumulator) : Prop :=
  ∀ o c, a.head? o = some c →
    ∃ d, b.head? o = some d ∧ d.name = c.name ∧ d.path = c.path ∧ d.parent? = c.parent?

/-- What was refused is listed: each name and path once, in the order in which they were refused first,
with the path that the name was registered for, which is another one. -/
structure Listed (a : Accumulator) (past : List (String × String)) : Prop where
  entries : a.collisions.map Collision.refusal = past.eraseDups
  firstPath : ∀ d ∈ a.collisions, d.firstPath ≠ d.collidingPath ∧
    ∃ c, a.head? (.nested d.typeName) = some c ∧ c.path = d.firstPath

variable {a b c : Accumulator}

namespace Extends

theorem refl (a : Accumulator) : Extends a a :=
  fun _ c hc => ⟨c, hc, rfl, rfl, rfl⟩

theorem trans (h : Extends a b) (h' : Extends b c) : Extends a c := by
  intro o x hx
  obtain ⟨y, hy, hname, hpath, hparent⟩ := h o x hx
  obtain ⟨z, hz, hname', hpath', hparent'⟩ := h' o y hy
  exact ⟨z, hz, hname'.trans hname, hpath'.trans hpath, hparent'.trans hparent⟩

theorem of_head? (h : ∀ o, b.head? o = a.head? o) : Extends a b :=
  fun o x hx => ⟨x, (h o).trans hx, rfl, rfl, rfl⟩

theorem event (a : Accumulator) (e : Event) : Extends a (e.apply a) :=
  fun _ _ hc => e.head?_mono hc

theorem claim (a : Accumulator) (typeName path parent : String) :
    Extends a (a.claim typeName path parent).1 := by
  intro o x hx
  rw [Accumulator.head?_claim]
  split
  · rw [hx]
    exact ⟨x, rfl, rfl, rfl, rfl⟩
  · exact ⟨x, hx, rfl, rfl, rfl⟩

theorem context? (h : Extends a b) {o : Owner} {x : TypeContext} (hx : a.context? o = some x) :
    ∃ y, b.context? o = some y ∧ y.name = x.name ∧ y.path = x.path ∧ y.parent? = x.parent? := by
  obtain ⟨_, hbare, hsame⟩ := h o x.bare (Accumulator.head?_of_context? hx)
  obtain ⟨y, hy, rfl⟩ := Option.map_eq_some_iff.1 hbare
  exact ⟨y, hy, hsame⟩

end Extends

/-- A pair that comes once more is not listed once more. -/
theorem eraseDups_concat {α : Type} [BEq α] [LawfulBEq α] (past : List α) (x : α) [Decidable (x ∈ past)] :
    (past ++ [x]).eraseDups = past.eraseDups ++ if x ∈ past then [] else [x] := by
  rw [List.eraseDups_append]
  congr 1
  by_cases h : x ∈ past <;> simp [List.removeAll, h, List.eraseDups_cons]

namespace Listed

variable {past : List (String × String)}

theorem isReported_iff (h : Listed a past) {typeName path : String} :
    a.isReported typeName path = true ↔ (typeName, path) ∈ past := by
  rw [Accumulator.isReported, CollisionLog.contains_iff, ← List.mem_eraseDups, ← h.entries, List.mem_map]
  simp only [Collision.refusal, Prod.mk.injEq]
  rfl

/-- A path that is listed as the first stays the one that its name is registered for. -/
theorem firstPath_stays (h : Listed a past) (hextends : Extends a b) : ∀ d ∈ a.collisions,
    d.firstPath ≠ d.collidingPath ∧
      ∃ c, b.head? (.nested d.typeName) = some c ∧ c.path = d.firstPath := by
  intro d hd
  obtain ⟨hne, x, hx, hpath⟩ := h.firstPath d hd
  obtain ⟨y, hy, -, hpath', -⟩ := hextends _ x hx
  exact ⟨hne, y, hy, hpath'.trans hpath⟩

theorem keep (h : Listed a past) (hextends : Extends a b) (hcollisions : b.collisions = a.collisions) :
    Listed b past where
  entries := hcollisions ▸ h.entries
  firstPath := hcollisions ▸ h.firstPath_stays hextends

/-- A request that is refused is listed unless it has been before. -/
theorem request (h : Listed a past) (hextends : Extends a b) {typeName path : String} {granted : Bool}
    (hgranted : granted = true ↔ ∀ x, a.head? (.nested typeName) = some x → x.path = path)
    (hcollisions : b.collisions =
      match a.head? (.nested typeName) with
      | some x =>
        if x.path = path ∨ a.isReported typeName path then a.collisions
        else a.collisions ++ [⟨typeName, x.path, path⟩]
      | none => a.collisions) :
    Listed b (past ++ if granted then [] else [(typeName, path)]) := by
  cases hx : a.head? (.nested typeName) with
  | none =>
    rw [hx] at hcollisions
    rw [if_pos (hgranted.2 fun x hx' => by simp [hx] at hx'), List.append_nil]
    exact h.keep hextends hcollisions
  | some x =>
    simp only [hx] at hcollisions hgranted
    by_cases hpath : x.path = path
    · rw [if_pos (.inl hpath)] at hcollisions
      rw [if_pos (hgranted.2 fun y hy => Option.some.inj hy ▸ hpath), List.append_nil]
      exact h.keep hextends hcollisions
    · rw [if_neg fun hg => hpath (hgranted.1 hg x rfl)]
      by_cases hreported : (typeName, path) ∈ past
      · rw [if_pos (.inr (h.isReported_iff.2 hreported))] at hcollisions
        obtain ⟨hentries, hfirst⟩ := h.keep hextends hcollisions
        exact ⟨by rw [hentries, eraseDups_concat, if_pos hreported, List.append_nil], hfirst⟩
      · rw [if_neg fun hor => hor.elim hpath fun hr => hreported (h.isReported_iff.1 hr)] at hcollisions
        refine ⟨?_, fun d hd => ?_⟩
        · rw [hcollisions, List.map_append, h.entries, eraseDups_concat, if_neg hreported]
          rfl
        · rw [hcollisions] at hd
          rcases List.mem_append.1 hd with hd | hd
          · exact h.firstPath_stays hextends d hd
          · obtain rfl := List.mem_singleton.1 hd
            obtain ⟨z, hz, -, hz', -⟩ := hextends _ x hx
            exact ⟨hpath, z, hz, hz'⟩

end Listed

/-- Refusals between two states: the contexts stay, and what is refused is listed after what was refused
before. -/
structure Logged (a : Accumulator) (l : List (String × String)) (b : Accumulator) : Prop where
  stay : Extends a b
  listed : ∀ past, Listed a past → Listed b (past ++ l)

namespace Logged

variable {l l' : List (String × String)}

theorem quiet (hextends : Extends a b) (hcollisions : b.collisions = a.collisions) : Logged a [] b where
  stay := hextends
  listed past h := (List.append_nil past).symm ▸ h.keep hextends hcollisions

theorem append (h : Logged a l b) (h' : Logged b l' c) : Logged a (l ++ l') c where
  stay := h.stay.trans h'.stay
  listed past hpast := by
    rw [← List.append_assoc]
    exact h'.listed _ (h.listed past hpast)

theorem event {e : Event} (he : ∀ owner key, e ≠ .nested owner key) (a : Accumulator) :
    Logged a [] (e.apply a) :=
  quiet (.event a e) (Event.collisions_apply he)

end Logged

/-- Every step of a merge keeps the contexts, and lists what it is refused. -/
theorem followed_logged :
    Followed fun _ _ a l b => Logged a ((refusedOf l).map NameRequest.refusal) b where
  stay _ _ a := .quiet (.refl a) rfl
  trans h h' := by
    rw [refusedOf_append, List.map_append]
    exact h.append h'
  field a _ _ _ _ _ := .event (by simp) a
  empty a _ := .event (by simp) a
  nested {owner _ key} a _ _ _ := by
    refine ⟨.event a _, fun past h => ?_⟩
    have hlisted := h.request (.event a (.nested owner key)) Event.granted_iff Event.collisions_nested
    cases hgranted : (enter a owner key).2 <;>
      simpa [refusedOf, requestOf, NameRequest.refusal, hgranted] using hlisted
  granted {_ _ _ _ _ x _} h hgranted h' := by
    have hx : refusedOf [x] = [] := by simp [refusedOf, hgranted]
    rw [hx] at h
    rw [← List.singleton_append, refusedOf_append, hx]
    exact h.append h'
  document _ a _ := .event (by simp) a
  finish _ a := .event (by simp) a
  record _ a _ := .event (by simp) a

/-! ## Operations -/

theorem Operation.logged (op : Operation) (a : Accumulator) : Logged a (op.refusals a) (op.apply a) := by
  cases op with
  | claim typeName path parent =>
    exact ⟨.claim a typeName path parent, fun past h =>
      h.request (.claim a typeName path parent) Accumulator.claim_granted_iff_head?
        (a.collisions_claim path typeName parent)⟩
  | merge detect e => exact followed_logged.mergeDocument e a
  | recordEmptyInstance path => exact .quiet (.of_head? fun o => by cases o <;> rfl) rfl
  | recordPaths paths => exact .quiet (.of_head? fun o => by cases o <;> rfl) rfl

theorem applyAll_logged (ops : List Operation) (a : Accumulator) :
    Logged a (refusals ops a) (applyAll ops a) := by
  induction ops generalizing a with
  | nil => exact .quiet (.refl a) rfl
  | cons op ops ih => exact (op.logged a).append (ih (op.apply a))

theorem Listed.fresh (collection top : String) : Listed (.fresh collection top) [] where
  entries := rfl
  firstPath _ hd := absurd hd List.not_mem_nil

/-- **Registry and collision log.** Whatever names are asked for, documents merged, objects without fields
counted and paths recorded, from the state before the first document on: a nested context is never lost,
and later operations leave its name, its path and its parent as they are. A name that is asked for
on behalf of a path has a context then, the one it had or a new one, and it is granted exactly if that is
the path of the context. What is listed are the names and paths that were refused, each once and in the
order in which they were refused first, and the path that is listed as the first is the one that the name
is registered for, which is not the refused one; what is kept beside the list says the same. -/
theorem registry_and_log (collection top : String) (before after : List Operation) :
    let a := applyAll before (.fresh collection top)
    let past := refusals before (.fresh collection top)
    (∀ n c, a.context? (.nested n) = some c → ∃ d, (applyAll after a).context? (.nested n) = some d ∧
      d.name = c.name ∧ d.path = c.path ∧ d.parent? = c.parent?) ∧
    (∀ n p parent, ∃ c, (a.claim n p parent).1.context? (.nested n) = some c ∧
      c = (a.context? (.nested n)).getD { name := n, path := p, parent? := some parent } ∧
      ((a.claim n p parent).2 = true ↔ c.path = p)) ∧
    a.collisions.map Collision.refusal = past.eraseDups ∧
    (∀ d ∈ a.collisions, d.firstPath ≠ d.collidingPath ∧
      ∃ c, a.context? (.nested d.typeName) = some c ∧ c.path = d.firstPath) ∧
    ∀ n p, a.isReported n p = true ↔ (n, p) ∈ past := by
  intro a past
  have hlisted : Listed a past := (applyAll_logged before _).listed [] (.fresh collection top)
  refine ⟨fun n c hc => (applyAll_logged after a).stay.context? hc, fun n p parent => ?_,
    hlisted.entries, fun d hd => ?_, fun n p => hlisted.isReported_iff⟩
  · rw [Accumulator.context?_claim, if_pos rfl]
    refine ⟨_, rfl, rfl, Accumulator.claim_granted_iff.trans ?_⟩
    change (∀ c, a.context? (.nested n) = some c → c.path = p) ↔ _
    cases a.context? (.nested n) <;> simp
  · obtain ⟨hne, x, hx, hpath⟩ := hlisted.firstPath d hd
    obtain ⟨c, hc, rfl⟩ := Option.map_eq_some_iff.1 hx
    exact ⟨hne, c, hc, hpath⟩

/-- A name that was asked for on behalf of another path is refused to the objects of a document, twice, and
is listed once. -/
theorem registry_and_log_refused :
    let document : Value := .map [("a", .sequence [.map [("b", .int 1)], .map [("c", .int 1)]])]
    ∃ e, Extraction.extract {} document = .ok e ∧
      let operations : List Operation :=
        [.claim "CA" "x" "C", .recordEmptyInstance "x", .merge true e, .recordPaths ["y"]]
      refusals operations (.fresh "c" "C") = [("CA", "a"), ("CA", "a")] ∧
      (applyAll operations (.fresh "c" "C")).collisions.map Collision.refusal = [("CA", "a")] := by
  intro document
  refine ⟨_, rfl, ?_⟩
  intro operations
  have hpast : refusals operations (.fresh "c" "C") = [("CA", "a"), ("CA", "a")] := by decide +kernel
  refine ⟨hpast, ?_⟩
  rw [(registry_and_log "c" "C" operations []).2.2.1, hpast]
  decide

end Schema

end DocSchema
