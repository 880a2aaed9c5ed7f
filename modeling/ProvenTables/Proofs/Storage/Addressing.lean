import ProvenTables.Proofs.Storage.Closed

/-!
# Contents and their addresses

What procedures keep in a store that has every object under the address of its content. If no two of
the contents have the same address, then a content that is kept is found under its address from then on.
-/

namespace ProvenTables

/-- No two of the contents have the same address. -/
def NoCollision (contents : List String) : Prop :=
  ∀ c ∈ contents, ∀ d ∈ contents, Address.ofText c = Address.ofText d → c = d

/-- Contents with different addresses do not collide. -/
lemma noCollision_of_nodup {contents : List String} (h : (contents.map Address.ofText).Nodup) :
    NoCollision contents :=
  fun _ hc _ hd heq => List.inj_on_of_nodup_map h hc hd heq

/-- Fewer contents do not collide if all do not. -/
lemma NoCollision.mono {contents contents' : List String} (h : NoCollision contents')
    (hsub : contents ⊆ contents') : NoCollision contents :=
  fun c hc d hd heq => h c (hsub hc) d (hsub hd) heq

/-- The contents that a request keeps. -/
def Request.contents : Request → List String
  | keep _ content => [content]
  | _ => []

/-- The contents that a procedure keeps when it is run alone. -/
def Procedure.kept {ε α : Type} : Procedure ε α → Memory → List String
  | done _, _ => []
  | step r next, m => r.contents ++ (next (Memory.answer r m).1).kept (Memory.answer r m).2

namespace Objects

/-- Every object is one of the contents, and under its address. -/
def IsAddressed (contents : List String) (o : Objects) : Prop :=
  ∀ k c, o.get? k = some c → c ∈ contents ∧ k = (Address.ofText c).text

variable {contents : List String} {o : Objects}

/-- Objects stay under their own addresses when a content is kept under its address. -/
lemma isAddressed_keep (h : o.IsAddressed contents) {c : String} (hc : c ∈ contents) :
    (o.keep (Address.ofText c) c).IsAddressed contents := by
  intro k d hd
  rw [get?_keep] at hd
  cases hk : o.get? k with
  | some e =>
    rw [hk] at hd
    cases hd
    exact h k d hk
  | none =>
    rw [hk, Option.none_or] at hd
    split at hd
    · rename_i hkey
      cases hd
      exact ⟨hc, hkey.symm⟩
    · cases hd

/-- A content that is kept is under its address. -/
lemma get?_keep_of_isAddressed (h : o.IsAddressed contents) (hno : NoCollision contents) {c : String}
    (hc : c ∈ contents) :
    (o.keep (Address.ofText c) c).get? (Address.ofText c).text = some c := by
  rw [get?_keep]
  cases hk : o.get? (Address.ofText c).text with
  | none => rw [Option.none_or, if_pos rfl]
  | some d =>
    -- an object is never replaced, so what is there already has to be the content
    obtain ⟨hd, haddress⟩ := h _ d hk
    have heq : Address.ofText c = Address.ofText d := congrArg Address.mk haddress
    rw [hno c hc d hd heq]
    rfl

/-- A document that is put is stored, if its content collides with no other one. -/
lemma stored_put {v : Json} (h : o.IsAddressed contents) (hno : NoCollision contents)
    (hv : v.canonical ∈ contents) : Storage.Stored (o.put v) v :=
  get?_keep_of_isAddressed h hno hv

end Objects

end ProvenTables
