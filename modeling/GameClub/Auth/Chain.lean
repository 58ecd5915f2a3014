import GameClub.Auth.Sequential

/-! # Chains of tokens

A family starts with the token of a login. Each rotation adds a token at its end and says so in the
token it replaces.

* `Chained`: the tokens of a family in the order they were issued.
* `effect_chained`: every effect keeps the families chained.
* `rotation_chain`: after any operations one after another each family is a chain. -/

namespace GameClub.Auth

open GameClub.Lib GameClub.Common

/-- **The tokens of a family**, in the order they were issued. -/
def family (t : Table RefreshToken.id) (familyId : Uuid) : List RefreshToken :=
  t.rows.filter fun x => x.familyId = familyId

/-- The token has been replaced by the other one. -/
def Follows (x y : RefreshToken) : Prop := x.revoked = true ∧ x.replacedBy = some y.id

/-- **A chain**: each token has been replaced by the next one, the last by none. -/
structure Chained (ts : List RefreshToken) : Prop where
  links : ts.IsChain Follows
  last : ∀ x ∈ ts.getLast?, x.replacedBy = none

theorem mem_family {t : Table RefreshToken.id} {familyId : Uuid} {x : RefreshToken} :
    x ∈ family t familyId ↔ x ∈ t.rows ∧ x.familyId = familyId := by
  simp [family]

/-! ### Chains -/

section Chains

variable {ts : List RefreshToken} {x y : RefreshToken}

/-- A token in the chain is the last one, or followed by the next. -/
theorem Chained.next (h : Chained ts) (hx : x ∈ ts) :
    (∃ l, ts = l ++ [x]) ∨ ∃ l y r, ts = l ++ x :: y :: r ∧ Follows x y := by
  obtain ⟨l, r, rfl⟩ := List.append_of_mem hx
  cases r with
  | nil => exact Or.inl ⟨l, rfl⟩
  | cons y r =>
    have hlink := List.isChain_iff_forall_rel_of_append_cons_cons.mp h.links (rfl : l ++ x :: y :: r = _)
    exact Or.inr ⟨l, y, r, rfl, hlink⟩

/-- An unrevoked token is the last one. -/
theorem Chained.live_last (h : Chained ts) (hx : x ∈ ts) (hlive : x.revoked = false) :
    ∃ l, ts = l ++ [x] := by
  rcases h.next hx with hlast | ⟨l, y, r, -, hrevoked, -⟩
  · exact hlast
  · rw [hlive] at hrevoked
    cases hrevoked

/-- Every token but the last is revoked. -/
theorem Chained.revoked_of_dropLast (h : Chained ts) (hx : x ∈ ts.dropLast) : x.revoked = true := by
  rcases List.eq_nil_or_concat ts with rfl | ⟨l, z, rfl⟩
  · cases hx
  · rw [List.concat_eq_append, List.dropLast_concat] at hx
    obtain ⟨l₁, r, rfl⟩ := List.append_of_mem hx
    have hlinks := h.links
    cases r with
    | nil =>
      have hsplit : (l₁ ++ [x]).concat z = l₁ ++ x :: z :: [] := by simp
      exact (List.isChain_iff_forall_rel_of_append_cons_cons.mp hlinks hsplit).1
    | cons y r =>
      have hsplit : (l₁ ++ x :: y :: r).concat z = l₁ ++ x :: y :: (r ++ [z]) := by simp
      exact (List.isChain_iff_forall_rel_of_append_cons_cons.mp hlinks hsplit).1

/-- **At most one token of a chain is unrevoked.** -/
theorem Chained.one_live (h : Chained ts) :
    (ts.filter fun x => x.revoked = false).length ≤ 1 := by
  have hnone : ts.dropLast.filter (fun x => x.revoked = false) = [] := by
    refine List.filter_eq_nil_iff.mpr fun x hx => ?_
    have hrevoked := h.revoked_of_dropLast hx
    simp [hrevoked]
  rcases List.eq_nil_or_concat ts with rfl | ⟨l, z, rfl⟩
  · simp
  · rw [List.concat_eq_append, List.dropLast_concat] at hnone
    rw [List.concat_eq_append, List.filter_append, hnone, List.nil_append]
    exact List.length_filter_le _ _

/-- The last token replaced by a new one. -/
theorem Chained.replace {l : List RefreshToken} (h : Chained (l ++ [x])) {x' : RefreshToken}
    (hid : x'.id = x.id) (hlink : Follows x' y) (hlast : y.replacedBy = none) :
    Chained (l ++ [x', y]) := by
  obtain ⟨hl, -, hjoin⟩ := List.isChain_append.mp h.links
  refine ⟨hl.append (List.isChain_pair.mpr hlink) fun w hw z hz => ?_, fun z hz => ?_⟩
  · have hwx := hjoin w hw x (by simp)
    cases hz
    exact ⟨hwx.1, by rw [hwx.2, hid]⟩
  · have hzy : z = y := by simpa [List.getLast?_append] using hz.symm
    rw [hzy]
    exact hlast

theorem updated_fields (criteria : RefreshToken → Bool) (x : RefreshToken) :
    (x.updated criteria).familyId = x.familyId ∧ (x.updated criteria).replacedBy = x.replacedBy ∧
      (x.revoked = true → (x.updated criteria).revoked = true) := by
  unfold RefreshToken.updated
  split_ifs <;> simp

/-- Two tokens before the same one are one token. -/
theorem eq_of_next {z : RefreshToken} {l l' r r' : List RefreshToken}
    (hnodup : (ts.map RefreshToken.id).Nodup) (h : ts = l ++ x :: z :: r)
    (h' : ts = l' ++ y :: z :: r') : x = y := by
  have hts := List.Nodup.of_map _ hnodup
  have hz : ∀ {l r : List RefreshToken} {w}, ts = l ++ w :: z :: r → z ∉ l ++ [w] ∧ z ∉ r := by
    intro l r w hsplit
    rw [hsplit, show l ++ w :: z :: r = (l ++ [w]) ++ z :: r by simp] at hts
    have hdis := List.nodup_append.mp hts
    exact ⟨fun hmem => hdis.2.2 z hmem z (by simp) rfl, (List.nodup_cons.mp hdis.2.1).1⟩
  have heq : (l ++ [x]) ++ z :: r = (l' ++ [y]) ++ z :: r' := by
    rw [List.append_assoc, List.append_assoc]
    exact h.symm.trans h'
  obtain ⟨hpre, -, -⟩ := (List.append_cons_inj_of_notMem (hz h).1 (hz h).2).mp heq
  exact (List.append_inj' hpre rfl).2 |> List.singleton_inj.mp

/-- Revoking tokens keeps a chain. -/
theorem Chained.updated (h : Chained ts) (criteria : RefreshToken → Bool) :
    Chained (ts.map (RefreshToken.updated criteria)) := by
  refine ⟨List.isChain_map_of_isChain _ (fun x y hxy => ?_) h.links, fun x hx => ?_⟩
  · obtain ⟨-, hnext, hrevoked⟩ := updated_fields criteria x
    exact ⟨hrevoked hxy.1, by rw [hnext, hxy.2, RefreshToken.updated_id]⟩
  · rw [List.getLast?_map] at hx
    obtain ⟨z, hz, rfl⟩ := Option.map_eq_some_iff.mp hx
    rw [(updated_fields criteria z).2.1]
    exact h.last z hz

end Chains

/-! ### Effects on families -/

section Families

variable {t t' : Table RefreshToken.id} {familyId : Uuid}

theorem family_insert {row : RefreshToken} (hnew : t.get? row.id = none) :
    family (t.insert row) familyId =
      family t familyId ++ if row.familyId = familyId then [row] else [] := by
  unfold family
  rw [Table.rows_insert hnew, List.filter_append]
  split_ifs with h <;> simp [h]

theorem family_updated (criteria : RefreshToken → Bool) :
    family (t.mapRows (RefreshToken.updated criteria) (RefreshToken.updated_id criteria)) familyId =
      (family t familyId).map (RefreshToken.updated criteria) := by
  unfold family Table.mapRows
  rw [List.filter_map]
  congr 1
  refine List.filter_congr fun x _ => ?_
  simp [(updated_fields criteria x).1]

/-- A token of the family set to another row. -/
theorem family_set {record row : RefreshToken} (hget : t.get? record.id = some record)
    (hid : row.id = record.id) (hfamily : row.familyId = record.familyId) :
    family (t.set row) familyId =
      (family t familyId).map fun x => if x.id = row.id then row else x := by
  unfold family
  rw [Table.rows_set, List.filter_map]
  congr 1
  refine List.filter_congr fun x hx => ?_
  by_cases hx' : x.id = row.id
  · have heq := Table.eq_of_key_eq hx (Table.mem_of_get? hget).1 (hx'.trans hid)
    rw [heq] at hx' ⊢
    simp [hx', hfamily]
  · simp [hx']

theorem map_set_of_ne {ts : List RefreshToken} {row : RefreshToken}
    (h : ∀ x ∈ ts, x.id ≠ row.id) : ts.map (fun x => if x.id = row.id then row else x) = ts := by
  have heq : ts.map (fun x => if x.id = row.id then row else x) = ts.map id :=
    List.map_congr_left fun x hx => if_neg (h x hx)
  rw [heq, List.map_id]

theorem family_nodup (t : Table RefreshToken.id) (familyId : Uuid) :
    ((family t familyId).map RefreshToken.id).Nodup :=
  t.nodup.sublist (List.filter_sublist.map _)

/-- **A rotation replaces the last token of its family by the new one**, and leaves the other
families alone. -/
theorem chained_rotated {record row : RefreshToken} (hget : t.get? record.id = some record)
    (hrecord : record.revoked = false) (hlast : row.replacedBy = none)
    (hnew : t.get? row.id = none) (hfamily : row.familyId = record.familyId)
    (hc : Chained (family t familyId)) :
    Chained (((family t familyId) ++ if row.familyId = familyId then [row] else []).map fun x =>
      if x.id = record.id then { record with revoked := true, replacedBy := some row.id } else x) := by
  have hne : row.id ≠ record.id := by
    intro heq
    rw [heq, hget] at hnew
    cases hnew
  have hset : ∀ {ts : List RefreshToken}, (∀ x ∈ ts, x.id ≠ record.id) → ts.map (fun x =>
      if x.id = record.id then { record with revoked := true, replacedBy := some row.id } else x) =
        ts := by
    intro ts h
    let rotated : RefreshToken := { record with revoked := true, replacedBy := some row.id }
    have hrotated : ∀ x ∈ ts, x.id ≠ rotated.id := h
    exact map_set_of_ne hrotated
  split_ifs with hf
  · have hmem : record ∈ family t familyId :=
      mem_family.mpr ⟨(Table.mem_of_get? hget).1, hfamily.symm.trans hf⟩
    obtain ⟨l, hl⟩ := hc.live_last hmem hrecord
    have hnodup := family_nodup t familyId
    rw [hl, List.map_append, List.map_singleton] at hnodup
    have hdisjoint : ∀ x ∈ l, x.id ≠ record.id := by
      intro x hx heq
      have hdis := List.nodup_append.mp hnodup
      exact hdis.2.2 x.id (List.mem_map_of_mem hx) record.id (by simp) heq
    rw [hl] at hc ⊢
    rw [List.map_append, List.map_append, hset hdisjoint]
    simp only [List.map_cons, List.map_nil, if_true, if_neg hne, List.append_assoc, List.cons_append,
      List.nil_append]
    exact hc.replace rfl ⟨rfl, rfl⟩ hlast
  · rw [List.append_nil, hset]
    · exact hc
    · intro x hx heq
      obtain ⟨hx, hxf⟩ := mem_family.mp hx
      have hxr := Table.eq_of_key_eq hx (Table.mem_of_get? hget).1 heq
      rw [hxr] at hxf
      exact hf (hfamily.trans hxf)

/-- **Every effect keeps the families chained.** -/
theorem effect_chained (h : Effect t t') (hc : ∀ f, Chained (family t f)) (f : Uuid) :
    Chained (family t' f) := by
  cases h with
  | same => exact hc f
  | @issued row hlive hlast hnew hfamily =>
    rw [family_insert hnew]
    split_ifs with hf
    · have hnil : family t f = [] := by
        refine List.filter_eq_nil_iff.mpr fun x hx => ?_
        simpa [hf] using hfamily x hx
      rw [hnil]
      exact ⟨List.isChain_singleton _, fun x hx => by cases hx; exact hlast⟩
    · rw [List.append_nil]
      exact hc f
  | @rotated record row hget hrecord hlive hlast hnew hfamily =>
    have hget' : (t.insert row).get? record.id = some record := by
      rw [Table.get?_insert_ne, hget]
      intro heq
      have hnone : t.get? record.id = none := by rw [heq]; exact hnew
      rw [hget] at hnone
      cases hnone
    let rotated : RefreshToken := { record with revoked := true, replacedBy := some row.id }
    have hid : rotated.id = record.id := rfl
    rw [family_set hget' hid rfl, family_insert hnew]
    have hstep := chained_rotated hget hrecord hlast hnew hfamily (hc f)
    exact hstep
  | revoked criteria =>
    rw [family_updated]
    exact (hc f).updated criteria

/-- **A stored token stays**, in its family, and revoked once it is. -/
theorem effect_keeps (h : Effect t t') {k : Uuid} {x : RefreshToken} (hx : t.get? k = some x) :
    ∃ y, t'.get? k = some y ∧ y.familyId = x.familyId ∧ (x.revoked = true → y.revoked = true) := by
  have hinsert : ∀ {row : RefreshToken}, t.get? row.id = none → (t.insert row).get? k = some x := by
    intro row hnew
    rw [Table.get?_insert_ne, hx]
    rintro rfl
    rw [hx] at hnew
    cases hnew
  cases h with
  | same => exact ⟨x, hx, rfl, id⟩
  | issued hlive hlast hnew hfamily => exact ⟨x, hinsert hnew, rfl, id⟩
  | @rotated record row hget hrecord hlive hlast hnew hfamily =>
    rw [Table.get?_set, hinsert hnew]
    split_ifs with hk
    · have hk' : k = record.id := hk
      rw [hk', hget] at hx
      cases hx
      exact ⟨_, rfl, rfl, fun _ => rfl⟩
    · exact ⟨x, rfl, rfl, id⟩
  | revoked criteria =>
    obtain ⟨hfamily, -, hrevoked⟩ := updated_fields criteria x
    rw [Table.get?_mapRows, hx]
    exact ⟨_, rfl, hfamily, hrevoked⟩

end Families

/-! ### Every sequence -/

section Sequences

variable {env : Env} {db db' db'' : AuthDb}

theorem sequence_chained (h : Sequence env db db')
    (hc : ∀ f, Chained (family db.refreshTokens f)) (f : Uuid) :
    Chained (family db'.refreshTokens f) := by
  induction h generalizing f with
  | refl => exact hc f
  | tail _ hop hfresh ih => exact effect_chained (performs_effect hop hfresh) ih f

theorem sequence_keeps (h : Sequence env db db') {k : Uuid} {x : RefreshToken}
    (hx : db.refreshTokens.get? k = some x) : ∃ y, db'.refreshTokens.get? k = some y ∧
      y.familyId = x.familyId ∧ (x.revoked = true → y.revoked = true) := by
  induction h with
  | refl => exact ⟨x, hx, rfl, id⟩
  | tail _ hop hfresh ih =>
    obtain ⟨y, hy, hfamily, hrevoked⟩ := ih
    obtain ⟨z, hz, hfamily', hrevoked'⟩ := effect_keeps (performs_effect hop hfresh) hy
    exact ⟨z, hz, hfamily'.trans hfamily, fun h => hrevoked' (hrevoked h)⟩

/-- **Each family is a chain** after any operations one after another: in the order they were issued,
every token but the last is revoked and names the next one of its family as the token that replaced
it, and no two tokens name the same one; a revoked token stays revoked. -/
theorem rotation_chain (h₀ : db.refreshTokens.rows = []) (h : Sequence env db db') :
    (∀ f, (family db'.refreshTokens f).IsChain Follows ∧
      (∀ x ∈ (family db'.refreshTokens f).getLast?, x.replacedBy = none) ∧
      (∀ x ∈ (family db'.refreshTokens f).dropLast, x.revoked = true) ∧
      ((family db'.refreshTokens f).filter fun x => x.revoked = false).length ≤ 1) ∧
    (∀ x ∈ db'.refreshTokens.rows, ∀ k, x.replacedBy = some k →
      ∃ l y r, family db'.refreshTokens x.familyId = l ++ x :: y :: r ∧ y.id = k) ∧
    (∀ x ∈ db'.refreshTokens.rows, ∀ y ∈ db'.refreshTokens.rows, ∀ k,
      x.replacedBy = some k → y.replacedBy = some k → x = y) ∧
    ∀ db'', Sequence env db' db'' → ∀ x ∈ db'.refreshTokens.rows, x.revoked = true →
      ∃ y ∈ db''.refreshTokens.rows, y.id = x.id ∧ y.revoked = true := by
  have hempty : ∀ f, Chained (family db.refreshTokens f) := by
    intro f
    have hnil : family db.refreshTokens f = [] := by rw [family, h₀, List.filter_nil]
    rw [hnil]
    exact ⟨List.isChain_nil, fun x hx => by cases hx⟩
  have hchain := sequence_chained h hempty
  have hnext : ∀ x ∈ db'.refreshTokens.rows, ∀ k, x.replacedBy = some k →
      ∃ l y r, family db'.refreshTokens x.familyId = l ++ x :: y :: r ∧ y.id = k := by
    intro x hx k hk
    have hlast := (hchain x.familyId).last
    rcases (hchain x.familyId).next (mem_family.mpr ⟨hx, rfl⟩) with ⟨l, hl⟩ | ⟨l, y, r, hl, -, hid⟩
    · have hnone := hlast x (by rw [hl]; simp)
      rw [hk] at hnone
      cases hnone
    · rw [hk] at hid
      exact ⟨l, y, r, hl, (Option.some.inj hid).symm⟩
  refine ⟨fun f => ⟨(hchain f).links, (hchain f).last, fun x hx => (hchain f).revoked_of_dropLast hx,
    (hchain f).one_live⟩, hnext, fun x hx y hy k hxk hyk => ?_, fun db'' hmore x hx hrevoked => ?_⟩
  · obtain ⟨l, z, r, hl, hz⟩ := hnext x hx k hxk
    obtain ⟨l', z', r', hl', hz'⟩ := hnext y hy k hyk
    have hmem : z ∈ family db'.refreshTokens x.familyId := by rw [hl]; simp
    have hmem' : z' ∈ family db'.refreshTokens y.familyId := by rw [hl']; simp
    obtain ⟨hrow, hf⟩ := mem_family.mp hmem
    obtain ⟨hrow', hf'⟩ := mem_family.mp hmem'
    have heq := Table.eq_of_key_eq hrow hrow' (hz.trans hz'.symm)
    rw [heq] at hl hf
    rw [hf.symm.trans hf'] at hl
    exact eq_of_next (family_nodup _ _) hl hl'
  · obtain ⟨y, hy, -, hrevoked'⟩ := sequence_keeps hmore (Table.get?_of_mem hx)
    obtain ⟨hmem, hid⟩ := Table.mem_of_get? hy
    exact ⟨y, hmem, hid, hrevoked' hrevoked⟩

end Sequences

/-- The store before the first login. -/
def noTokens : AuthDb := ⟨.single cashier, .empty, [], 0⟩

/-- A login, whose token gets the id 2 and the family 3. -/
def firstLogin : LoginCall :=
  ⟨cashierDto, noContext, ⟨3, 2, "secret", "salt", ""⟩⟩

/-- A login and a refresh. -/
theorem rotation_chain_twice : ∃ db', Sequence plainEnv noTokens db' ∧
    (family db'.refreshTokens 3).map RefreshToken.id = [2, 4] ∧
    (family db'.refreshTokens 3).IsChain Follows := by
  have hlogin : Sequence plainEnv noTokens (served plainEnv (.login firstLogin) noTokens) :=
    Sequence.refl.served ⟨by decide, fun t ht => by cases ht⟩
  have hrefresh := hlogin.served (q := refreshFirst 4) (show (4 : ℕ) < 2 ^ 128 by decide)
  exact ⟨_, hrefresh, by decide +kernel, ((rotation_chain rfl hrefresh).1 3).1⟩

end GameClub.Auth
