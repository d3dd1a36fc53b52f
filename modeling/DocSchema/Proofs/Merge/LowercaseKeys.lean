import DocSchema.Proofs.Merge.Agreement
import DocSchema.Proofs.Naming.Words

/-!
# Lower-case keys

The name of a nested type is that of the top-level type with the keys of a place run together, each with
a capital. If the keys are lower-case letters and digits, a capital stands at the beginning of each key and
nowhere else, so the name can be read back into the place whatever the top-level type is called. Objects
with fields below such keys are then refused no name.

- `Naming.isLowercaseKey`: a small letter, and then small letters and digits.
- `Place.typeName_injective`: the name of a type tells the place, below lower-case keys.
- `namesTellFields_of_lowercase`: so names tell fields, whatever keys hold other values.
- `merged_lowercase`: no name is refused, in whatever order documents are merged.
-/

namespace DocSchema

namespace Naming

/-- Whether a character is a small letter or a digit, as they stand behind the first letter of a
lower-case key. -/
def isSmall (c : Char) : Bool :=
  c.isLower || c.isDigit

/-- Whether a key is a small letter, and then small letters and digits, all of them ASCII. -/
def isLowercaseKey (key : String) : Bool :=
  match key.toList with
  | [] => false
  | c :: rest => c.isLower && rest.all isSmall

/-- The capital of a small letter is a capital, and tells the letter. -/
theorem toUpper_of_isLower {c : Char} (h : c.isLower = true) :
    c.toUpper.isUpper = true ∧ c.toUpper.toLower = c := by
  have htable : ∀ n < 128, (Char.ofNat n).isLower = true →
      (Char.ofNat n).toUpper.isUpper = true ∧ (Char.ofNat n).toUpper.toLower = Char.ofNat n := by
    decide
  have hc := htable c.toNat (Nat.lt_of_le_of_lt (isLower_iff.1 h).2 (by decide))
  rw [Char.ofNat_toNat] at hc
  exact hc h

theorem not_isUpper_of_isSmall {c : Char} (h : isSmall c = true) : ¬ c.isUpper = true := by
  intro hupper
  have hcapital : 65 ≤ c.val ∧ c.val ≤ 90 := of_decide_eq_true hupper
  rw [UInt32.le_iff_toNat_le, UInt32.le_iff_toNat_le] at hcapital
  change 65 ≤ c.toNat ∧ c.toNat ≤ 90 at hcapital
  rw [isSmall, Bool.or_eq_true] at h
  rcases h with hlower | hdigit
  · have hrange := isLower_iff.1 hlower
    omega
  · have hrange : (decide (48 ≤ c.val) && decide (c.val ≤ 57)) = true := hdigit
    rw [Bool.and_eq_true, decide_eq_true_eq, decide_eq_true_eq, UInt32.le_iff_toNat_le,
      UInt32.le_iff_toNat_le] at hrange
    change 48 ≤ c.toNat ∧ c.toNat ≤ 57 at hrange
    omega

theorem isWordChar_of_isSmall {c : Char} (h : isSmall c = true) : isWordChar c = true := by
  have hword : (c.isUpper || c.isLower || c.isDigit) = true := by
    rw [Bool.or_assoc, Bool.or_eq_true]
    exact .inr h
  exact hword

/-- A lower-case key adds itself to the name of the parent type, with a capital. -/
theorem nestedTypeName_lowercase (parent : String) {key : String} (h : isLowercaseKey key = true) :
    ∃ c rest, key.toList = c :: rest ∧ c.isLower = true ∧ (∀ d ∈ rest, isSmall d = true) ∧
      (nestedTypeName parent key).toList = parent.toList ++ c.toUpper :: rest := by
  cases hkey : key.toList with
  | nil =>
    rw [isLowercaseKey, hkey] at h
    cases h
  | cons c rest =>
    rw [isLowercaseKey, hkey] at h
    simp only [Bool.and_eq_true, List.all_eq_true] at h
    obtain ⟨hc, hrest⟩ := h
    have hword : isWordChar c = true := isWordChar_of_isSmall (by rw [isSmall, hc, Bool.true_or])
    have hpascal : (pascal key).toList = c.toUpper :: rest := by
      rw [pascal, String.toList_ofList, hkey, pascalFrom, if_pos hword,
        pascalFrom_true_of_word fun d hd => isWordChar_of_isSmall (hrest d hd)]
      rfl
    have hne : pascal key ≠ "" := fun hnil => by
      rw [hnil] at hpascal
      cases hpascal
    refine ⟨c, rest, rfl, hc, hrest, ?_⟩
    rw [nestedTypeName, if_neg hne, String.toList_append, hpascal]

end Naming

namespace Place

open Naming (isLowercaseKey)

/-- The name of the top-level type stands in front of what the keys add. -/
theorem typeName_eq_append (top : String) (p : Place) : typeName top p = top ++ typeName "" p := by
  induction p with
  | nil => simp [typeName]
  | cons key up ih =>
    rw [typeName, typeName, ih, Naming.nestedTypeName, Naming.nestedTypeName, String.append_assoc]

/-- Below lower-case keys the name of a type tells the place: the last capital begins the last key. -/
theorem typeName_injective (top : String) {p q : Place} (hp : ∀ key ∈ p, isLowercaseKey key = true)
    (hq : ∀ key ∈ q, isLowercaseKey key = true) (h : typeName top p = typeName top q) : p = q := by
  rw [typeName_eq_append top p, typeName_eq_append top q, String.append_right_inj] at h
  induction p generalizing q with
  | nil =>
    cases q with
    | nil => rfl
    | cons key up =>
      obtain ⟨c, rest, -, -, -, hname⟩ :=
        Naming.nestedTypeName_lowercase (typeName "" up) (hq key List.mem_cons_self)
      have hnil := congrArg String.toList h
      simp only [typeName, hname] at hnil
      simp at hnil
  | cons key up ih =>
    obtain ⟨c, rest, hkey, hc, hrest, hname⟩ :=
      Naming.nestedTypeName_lowercase (typeName "" up) (hp key List.mem_cons_self)
    cases q with
    | nil =>
      have hnil := congrArg String.toList h
      simp only [typeName, hname] at hnil
      simp at hnil
    | cons key' up' =>
      obtain ⟨c', rest', hkey', hc', hrest', hname'⟩ :=
        Naming.nestedTypeName_lowercase (typeName "" up') (hq key' List.mem_cons_self)
      have hlist := congrArg List.reverse (congrArg String.toList h)
      rw [typeName, typeName, hname, hname'] at hlist
      simp only [List.reverse_append, List.reverse_cons, List.append_assoc, List.singleton_append] at hlist
      obtain ⟨hends, hcapital, hparents⟩ := append_cons_inj (fun a => a.isUpper = true)
        (fun a ha => Naming.not_isUpper_of_isSmall (hrest a (List.mem_reverse.1 ha)))
        (fun a ha => Naming.not_isUpper_of_isSmall (hrest' a (List.mem_reverse.1 ha)))
        (Naming.toUpper_of_isLower hc).1 (Naming.toUpper_of_isLower hc').1 hlist
      have hletter : c = c' := by
        rw [← (Naming.toUpper_of_isLower hc).2, hcapital, (Naming.toUpper_of_isLower hc').2]
      have hkeys : key = key' := String.toList_inj.1 (by
        rw [hkey, hkey', hletter, List.reverse_inj.1 hends])
      have hup : typeName "" up = typeName "" up' := String.toList_inj.1 (List.reverse_inj.1 hparents)
      rw [hkeys, ih (fun k hk => hp k (List.mem_cons_of_mem _ hk))
        (fun k hk => hq k (List.mem_cons_of_mem _ hk)) hup]

end Place

namespace Schema

open Extracted (placedIn)
open Naming (isLowercaseKey)

variable {detect : Bool} {es : List Extracted}

/-- The keys that lead to an object with fields are lower-case, if those that hold one are. -/
theorem lowercase_of_placed
    (hkeys : ∀ q ∈ placedIn es, ∀ f ∈ q.2.fields, ∀ o ∈ f.objects, o.isEmpty = false →
      isLowercaseKey f.key = true) {q : Place × ObjectSample} (hq : q ∈ placedIn es)
    (hne : q.2.isEmpty = false) : ∀ key ∈ q.1, isLowercaseKey key = true := by
  obtain ⟨e, he, hqe⟩ := Extracted.mem_placedIn.1 hq
  refine (ObjectSample.placed_induct
    (P := fun p o => (p, o) ∈ placedIn es ∧ (o.isEmpty = false → ∀ key ∈ p, isLowercaseKey key = true))
    ?_ [] e.root ⟨?_, fun _ key hkey => (by cases hkey)⟩ q hqe).2 hne
  · rintro p o f o' ⟨ho, hp⟩ hf hn ho'
    refine ⟨Extracted.handedDown_placedIn es p o f o' ho hf hn ho', fun hne' => ?_⟩
    exact List.forall_mem_cons.2
      ⟨hkeys _ ho f hf o' ho' hne', hp (ObjectSample.isEmpty_of_mem_fields hf)⟩
  · exact Extracted.mem_placedIn.2 ⟨e, he, ObjectSample.mem_placed_self [] e.root⟩

/-- If the keys that hold objects with fields are lower-case, the name of a nested type tells the field that
asked for it: both the name and the field are those of a place. -/
theorem namesTellFields_of_lowercase (top : String)
    (hkeys : ∀ q ∈ placedIn es, ∀ f ∈ q.2.fields, ∀ o ∈ f.objects, o.isEmpty = false →
      isLowercaseKey f.key = true) :
    NamesTellFields top (es.flatMap (documentEvents detect top)) := by
  intro o k o' k' hin hin' hname
  obtain ⟨q, hq, up, hplace, rfl, hne⟩ := nested_mem_iff.1 hin
  obtain ⟨r, hr, up', hplace', rfl, hne'⟩ := nested_mem_iff.1 hin'
  rw [Place.typeName_owner, Place.typeName_owner] at hname
  have hsame : q.1 = r.1 := by
    refine Place.typeName_injective top (lowercase_of_placed hkeys hq hne)
      (lowercase_of_placed hkeys hr hne') ?_
    rw [hplace, hplace']
    exact hname
  rw [hplace, hplace', List.cons.injEq] at hsame
  exact ⟨by rw [hsame.2], hsame.1⟩

/-- **Lower-case keys never collide.** If each key that holds an object with fields, in a field or in an
array at any position that is looked at, is a small letter followed by small letters and digits, no name
is refused while the documents are merged, in any order and each any number of times, whatever the
top-level type is called and whatever other keys there are. Proper documents are merged as a whole
meanwhile. -/
theorem merged_lowercase (s : ExtractionSettings) (detect : Bool) (collection top : String)
    (documents : List Value) (es : List Extracted)
    (hextract : documents.mapM (Extraction.extract s) = .ok es)
    (hkeys : ∀ e ∈ es, ∀ o ∈ e.objects, ∀ f ∈ o.fields, ∀ o' ∈ f.objects, o'.isEmpty = false →
      isLowercaseKey f.key = true) :
    (∀ es' ⊆ es, (mergeAll detect es' (.fresh collection top)).collisions = []) ∧
      ((∀ d ∈ documents, d.isProper = true) → ∀ e ∈ es, ∀ b, (mergeDocument detect e b).fault? = none) := by
  refine ⟨fun es' hsub => ?_, fun hproper e he => ?_⟩
  · refine (namesTellFields_of_lowercase top fun q hq => ?_).collisions_mergeAll fun f hf => hf
    obtain ⟨e, he, hqe⟩ := Extracted.mem_placedIn.1 hq
    exact hkeys e (hsub he) q.2 (List.mem_map_of_mem hqe)
  · obtain ⟨d, hd, h⟩ := exists_of_mapM_ok hextract he
    exact fault?_mergeDocument (Extraction.regular_of_extract h (hproper d hd)).1

/-- Two documents with objects below `a` and `ab`, in arrays and in each other, below a type whose name
could go on from one of theirs; keys of other shapes hold scalars and objects without fields. -/
theorem merged_lowercase_pair :
    let documents : List Value := [
      .map [("a", .sequence [.map [("b", .map [("x", .int 1)]), ("B", .map [])]]), ("a b", .int 1)],
      .map [("ab", .map [("x", .null), ("a.b", .sequence [.int 1])]), ("a", .map [("b1", .map [("y", .int 1)])])]]
    ∃ es, documents.mapM (Extraction.extract {}) = .ok es ∧
      (mergeAll true es (.fresh "c" "AB")).collisions = [] ∧
      (mergeAll true es.reverse (.fresh "c" "AB")).collisions = [] ∧
      (mergeAll true es (.fresh "c" "AB")).nested.keys = ["ABA", "ABAB", "ABAb", "ABAB1"] := by
  intro documents
  obtain ⟨es, hes⟩ : ∃ es, documents.mapM (Extraction.extract {}) = .ok es := ⟨_, rfl⟩
  have hkeys : ∀ es, documents.mapM (Extraction.extract {}) = .ok es →
      (∀ e ∈ es, ∀ o ∈ e.objects, ∀ f ∈ o.fields, ∀ o' ∈ f.objects, o'.isEmpty = false →
        isLowercaseKey f.key = true) ∧
      (mergeAll true es (.fresh "c" "AB")).nested.keys = ["ABA", "ABAB", "ABAb", "ABAB1"] := by
    rintro - ⟨⟩
    exact ⟨by decide +kernel, by decide +kernel⟩
  obtain ⟨hclean, -⟩ := merged_lowercase {} true "c" "AB" documents es hes (hkeys es hes).1
  exact ⟨es, hes, hclean es (List.Subset.refl es), hclean es.reverse (List.reverse_subset.2 (List.Subset.refl es)),
    (hkeys es hes).2⟩

end Schema

end DocSchema
