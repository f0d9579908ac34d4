import AlgoBot.Billing.Reconcile

/-!
# Payment references

A checkout sends the provider a reference with the prefix of the provider, the
id of the user, the plan and a random suffix, joined by hyphens. The reconciler
splits it at the hyphens. The plan may have hyphens of its own.

* `reference_round_trip_iff`: the reconciler reads the user and the plan back
  exactly if the plan has no hyphen.
* `hyphen_lost`: a plan that has one.
-/

namespace AlgoBot.Billing

open AlgoBot.Core AlgoBot.Python

/-! ## `PaymentService._reference` -/

/-- The prefixes of the three providers, as `_checkout` chooses them. -/
def referencePrefixes : List String := ["IS", "PP", "PY"]

/-- `ch.isalnum() or ch in "-_"`. -/
def keptInReference (isalnum : Char → Bool) (ch : Char) : Bool :=
  isalnum ch || ch == '-' || ch == '_'

/-- The plan as a reference carries it. -/
def sanitisedPlan (h : Host) (isalnum : Char → Bool) (plan : String) : String :=
  let plan := upper h (orText plan "PLAN")
  orText (take 20 (String.ofList (plan.toList.filter (keptInReference isalnum)))) "PLAN"

/-- `_reference`, with the random suffix; `none` is the `ValueError` of an id that is too long. -/
def reference (h : Host) (isalnum : Char → Bool) (kind : String) (user_id : ℕ) (plan : String)
    (suffix : String) : Option String :=
  (textOfInt user_id).map fun id =>
    kind ++ "-" ++ id ++ "-" ++ sanitisedPlan h isalnum plan ++ "-" ++ suffix

/-! ## Reading it back -/

section RoundTrip

variable {h : Host} {isalnum : Char → Bool} {kind plan suffix ref : String} {user_id : ℕ}

/-- A character of upper case text stays as it is in upper case. -/
theorem upper_of_mem_upper {cs : List Char} {c : Char} (hc : c ∈ cs.flatMap h.upper) :
    h.upper c = [c] := by
  obtain ⟨d, _, hcd⟩ := List.mem_flatMap.mp hc
  -- no character vanishes, so each of them takes up one place
  have hsame : ∀ xs : List Char, xs.length ≤ (xs.flatMap h.upper).length ∧
      (xs.flatMap h.upper = xs → ∀ x ∈ xs, h.upper x = [x]) := by
    intro xs
    induction xs with
    | nil => exact ⟨le_refl _, fun _ x hx => absurd hx List.not_mem_nil⟩
    | cons x xs ih =>
      have hpos : 0 < (h.upper x).length := List.length_pos_iff.mpr (h.upper_ne_nil x)
      rw [List.flatMap_cons, List.length_append, List.length_cons]
      refine ⟨by omega, ?_⟩
      intro heq
      have hlength : (h.upper x).length + (xs.flatMap h.upper).length = xs.length + 1 := by
        rw [← List.length_append, heq, List.length_cons]
      have hone : (h.upper x).length = 1 := by
        have hle := ih.1
        omega
      obtain ⟨y, hy⟩ := List.length_eq_one_iff.mp hone
      rw [hy, List.singleton_append, List.cons.injEq] at heq
      intro z hz
      rcases List.mem_cons.mp hz with rfl | hz
      · rw [hy, heq.1]
      · exact ih.2 heq.2 z hz
  exact (hsame (h.upper d)).2 (h.upper_upper d) c hcd

/-- The sanitised plan is in upper case, character by character. -/
theorem upper_of_mem_sanitised {c : Char} (hc : c ∈ (sanitisedPlan h isalnum plan).toList) :
    h.upper c = [c] := by
  have hplan : ("PLAN".toList.all fun c => decide (c.val < 128) && c.toUpper == c) = true := by
    decide +kernel
  have hcases : ∀ s : String, c ∈ (orText s "PLAN").toList → c ∈ s.toList ∨ c ∈ "PLAN".toList := by
    intro s hs
    unfold orText at hs
    split at hs
    · exact Or.inr hs
    · exact Or.inl hs
  rcases hcases _ hc with hc | hc
  · rw [take, String.toList_ofList] at hc
    have hmem := List.mem_of_mem_take hc
    rw [String.toList_ofList, upper, String.toList_ofList] at hmem
    exact upper_of_mem_upper (List.mem_of_mem_filter hmem)
  · -- the default plan
    have hascii := List.all_eq_true.mp hplan c hc
    rw [Bool.and_eq_true, decide_eq_true_eq, beq_iff_eq] at hascii
    rw [h.upper_ascii c hascii.1, hascii.2]

theorem upper_of_sanitised {s : String}
    (hs : ∀ c ∈ s.toList, c ∈ (sanitisedPlan h isalnum plan).toList) : upper h s = s := by
  have hsame : s.toList.flatMap h.upper = s.toList := by
    have hone : ∀ c ∈ s.toList, h.upper c = [c] := fun c hc => upper_of_mem_sanitised (hs c hc)
    calc s.toList.flatMap h.upper = s.toList.flatMap fun c => [c] := List.flatMap_congr hone
      _ = s.toList := List.flatMap_pure_eq_map id s.toList |>.trans (List.map_id _)
  rw [upper, hsame, String.ofList_toList]

/-- Text before the first hyphen, and what follows it. -/
theorem split_hyphen {s : String} (hs : '-' ∉ s.toList) (rest : String) :
    split '-' (s ++ "-" ++ rest) = s :: split '-' rest := by
  have hno : ∀ c ∈ s.toList, (c == '-') = false := by
    intro c hc
    rw [beq_eq_false_iff_ne]
    rintro rfl
    exact hs hc
  have hlist : (s ++ "-" ++ rest).toList = s.toList ++ '-' :: rest.toList := by
    simp [String.toList_append]
  rw [split, hlist, List.splitOn_eq_splitOnP,
    List.splitOnP_append_cons_of_forall_mem hno '-' (beq_self_eq_true '-') rest.toList]
  simp [split, List.splitOn_eq_splitOnP]

/-- What stands before the first hyphen of the plan, or of the suffix. -/
theorem first_part (plan suffix : String) :
    ∃ first rest, plan ++ "-" ++ suffix = first ++ "-" ++ rest ∧ '-' ∉ first.toList ∧
      (∀ c ∈ first.toList, c ∈ plan.toList) ∧ (first = plan ↔ '-' ∉ plan.toList) := by
  by_cases hplan : '-' ∈ plan.toList
  · obtain ⟨before, after, hsplit, hno⟩ := List.eq_append_cons_of_mem hplan
    refine ⟨String.ofList before, String.ofList after ++ "-" ++ suffix, ?_, ?_, ?_, ?_⟩
    · apply String.toList_injective
      simp [String.toList_append, hsplit]
    · rw [String.toList_ofList]
      exact hno
    · intro c hc
      rw [String.toList_ofList] at hc
      rw [hsplit]
      exact List.mem_append_left _ hc
    · refine iff_of_false ?_ (not_not.mpr hplan)
      intro heq
      rw [← heq, String.toList_ofList] at hplan
      exact hno hplan
  · exact ⟨plan, suffix, rfl, hplan, fun c hc => hc, iff_of_true rfl hplan⟩

theorem no_hyphen_id {id : String} (hid : textOfInt user_id = some id) : '-' ∉ id.toList := by
  obtain ⟨_, hn⟩ := Option.ite_none_left_eq_some.mp hid
  rw [← Option.some.inj hn]
  intro hmem
  have hdigit : '-' ∈ Nat.toDigits 10 user_id := by
    rw [← Nat.toList_repr]
    exact hmem
  exact absurd (Nat.isDigit_of_mem_toDigits (by decide) (by decide) hdigit) (by decide)

theorem no_hyphen_kind (hkind : kind ∈ referencePrefixes) : '-' ∉ kind.toList := by
  have hnone : ∀ kind ∈ referencePrefixes, '-' ∉ kind.toList := by decide
  exact hnone kind hkind

/-- The reconciler reads the user and the plan of a reference back exactly if the plan has no
hyphen. -/
theorem reference_round_trip_iff (hkind : kind ∈ referencePrefixes)
    (href : reference h isalnum kind user_id plan suffix = some ref) :
    referenceParts h (.str ref) = (some (user_id : ℤ), sanitisedPlan h isalnum plan) ↔
      '-' ∉ (sanitisedPlan h isalnum plan).toList := by
  obtain ⟨id, hid, rfl⟩ := Option.map_eq_some_iff.mp href
  obtain ⟨first, rest, hrest, hfirst, hsub, hiff⟩ :=
    first_part (sanitisedPlan h isalnum plan) suffix
  have hshape : kind ++ "-" ++ id ++ "-" ++ sanitisedPlan h isalnum plan ++ "-" ++ suffix =
      kind ++ "-" ++ (id ++ "-" ++ (first ++ "-" ++ rest)) := by
    rw [← hrest]
    simp only [String.append_assoc]
  have hparts : referenceParts h (.str (kind ++ "-" ++ id ++ "-" ++ sanitisedPlan h isalnum plan ++
      "-" ++ suffix)) = (some (user_id : ℤ), first) := by
    unfold referenceParts
    rw [textOr_str, hshape, split_hyphen (no_hyphen_kind hkind),
      split_hyphen (no_hyphen_id hid), split_hyphen hfirst]
    simp only [intOfText_textOfInt h hid, upper_of_sanitised hsub]
    exact if_pos hkind
  rw [hparts, Prod.mk.injEq, hiff]
  exact and_iff_right rfl

/-- A plan without hyphens comes back. -/
theorem reference_round_trip_pro :
    "IS" ∈ referencePrefixes ∧
      ∃ ref, reference Host.ascii Char.isAlphanum "IS" 7 "pro_plus" "00ff00ff00ff00ff" = some ref ∧
        referenceParts Host.ascii (.str ref) = (some 7, "PRO_PLUS") := by
  have hkind : "IS" ∈ referencePrefixes := by decide
  have href : reference Host.ascii Char.isAlphanum "IS" 7 "pro_plus" "00ff00ff00ff00ff" =
      some "IS-7-PRO_PLUS-00ff00ff00ff00ff" := by decide +kernel
  have hno : '-' ∉ (sanitisedPlan Host.ascii Char.isAlphanum "pro_plus").toList := by
    decide +kernel
  have hplan : sanitisedPlan Host.ascii Char.isAlphanum "pro_plus" = "PRO_PLUS" := by
    decide +kernel
  have hback := (reference_round_trip_iff hkind href).mpr hno
  rw [hplan] at hback
  exact ⟨hkind, _, href, hback⟩

end RoundTrip

/-- A plan with a hyphen comes back without what follows it. -/
theorem hyphen_lost :
    ∃ ref, reference Host.ascii Char.isAlphanum "IS" 7 "PRO-PLUS" "00ff00ff00ff00ff" = some ref ∧
      sanitisedPlan Host.ascii Char.isAlphanum "PRO-PLUS" = "PRO-PLUS" ∧
      referenceParts Host.ascii (.str ref) = (some 7, "PRO") ∧ "PRO" ≠ "PRO-PLUS" :=
  ⟨"IS-7-PRO-PLUS-00ff00ff00ff00ff", by decide +kernel, by decide +kernel, by decide +kernel,
    by decide⟩

end AlgoBot.Billing
