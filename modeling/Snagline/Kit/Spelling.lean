import Snagline.Kit.Grammar

/-!
# Spelled values

A text spells a value when the grammar of `Kit.Grammar` derives it. One relation
covers a value, the elements of an array up to its closing bracket and the members
of an object up to its closing brace, because these are the three things the reader
reads. The reader is sound and complete for it, so a text spells one value at most.
-/

namespace Snagline.Kit.Json

inductive Shape where
  | value (v : Json)
  | items (xs : List (Bytes × Json))
  | members (ms : Members)

/-- `Spells s shape`: the bytes `s` are a derivation of `shape`, from its first byte
to its last. Each element keeps the text it was spelled with. -/
inductive Spells : Bytes → Shape → Prop where
  | null : Spells [110, 117, 108, 108] (.value .null)
  | yes : Spells [116, 114, 117, 101] (.value (.bool true))
  | no : Spells [102, 97, 108, 115, 101] (.value (.bool false))
  | number {l : Bytes} (text : NumberText l) : Spells l (.value (.num l))
  | string {s v : Bytes} (text : StringText s v) : Spells (34 :: s) (.value (.str v))
  | emptyArray {ws : Bytes} (space : Space ws) : Spells (91 :: (ws ++ [93])) (.value (.arr []))
  | array {ws s : Bytes} {xs : List (Bytes × Json)} (space : Space ws)
      (inner : Spells s (.items xs)) : Spells (91 :: (ws ++ s)) (.value (.arr xs))
  | emptyObject {ws : Bytes} (space : Space ws) : Spells (123 :: (ws ++ [125])) (.value (.obj []))
  | object {ws s : Bytes} {ms : Members} (space : Space ws) (inner : Spells s (.members ms)) :
      Spells (123 :: (ws ++ s)) (.value (.obj ms))
  | lastItem {s ws : Bytes} {v : Json} (item : Spells s (.value v)) (space : Space ws) :
      Spells (s ++ (ws ++ [93])) (.items [(s, v)])
  | item {s ws ws' t : Bytes} {v : Json} {xs : List (Bytes × Json)} (item : Spells s (.value v))
      (space : Space ws) (space' : Space ws') (others : Spells t (.items xs)) :
      Spells (s ++ (ws ++ 44 :: (ws' ++ t))) (.items ((s, v) :: xs))
  | lastMember {k key a b s c : Bytes} {v : Json} (name : StringText k key) (ha : Space a)
      (hb : Space b) (value : Spells s (.value v)) (hc : Space c) :
      Spells (34 :: (k ++ (a ++ 58 :: (b ++ (s ++ (c ++ [125])))))) (.members [(key, s, v)])
  | member {k key a b s c d t : Bytes} {v : Json} {ms : Members} (name : StringText k key)
      (ha : Space a) (hb : Space b) (value : Spells s (.value v)) (hc : Space c) (hd : Space d)
      (others : Spells t (.members ms)) :
      Spells (34 :: (k ++ (a ++ 58 :: (b ++ (s ++ (c ++ 44 :: (d ++ t)))))))
        (.members ((key, s, v) :: ms))

/-! ### Where a text starts and ends -/

structure Opens (b : UInt8) : Prop where
  notSpace : isSpace b = false
  notBracket : b ≠ 93
  notBrace : b ≠ 125

theorem NumberText.head {l : Bytes} (h : NumberText l) :
    ∃ b l', l = b :: l' ∧ (b = 45 ∨ isDigit b = true) := by
  obtain ⟨sign, i, f, x, rfl, hsign, hi, -, -⟩ := h.parts
  rcases hsign with rfl | rfl
  · rcases hi with rfl | ⟨hi, -⟩
    · exact ⟨48, f ++ x, rfl, .inr (by decide)⟩
    · cases i with
      | nil => exact absurd rfl hi.nonempty
      | cons d i => exact ⟨d, i ++ (f ++ x), rfl, .inr (hi.all d List.mem_cons_self)⟩
  · exact ⟨45, i ++ (f ++ x), rfl, .inl rfl⟩

theorem numberHead_ne {b : UInt8} (h : b = 45 ∨ isDigit b = true) :
    b ≠ 123 ∧ b ≠ 91 ∧ b ≠ 34 ∧ b ≠ 116 ∧ b ≠ 102 ∧ b ≠ 110 ∧ Opens b := by
  have hrange : b.toNat = 45 ∨ 48 ≤ b.toNat ∧ b.toNat ≤ 57 := by
    rcases h with rfl | h
    · exact .inl rfl
    · unfold isDigit at h
      simp only [Bool.and_eq_true, decide_eq_true_eq, UInt8.le_iff_toNat_le,
        UInt8.reduceToNat] at h
      exact .inr h
  have hne : ∀ c : UInt8, (c.toNat < 45 ∨ c.toNat = 46 ∨ c.toNat = 47 ∨ 57 < c.toNat) → b ≠ c := by
    rintro c hc rfl
    omega
  refine ⟨hne _ (by decide), hne _ (by decide), hne _ (by decide), hne _ (by decide),
    hne _ (by decide), hne _ (by decide), ?_, hne _ (by decide), hne _ (by decide)⟩
  unfold isSpace
  simp only [Bool.or_eq_false_iff, beq_eq_false_iff_ne]
  exact ⟨⟨⟨hne _ (by decide), hne _ (by decide)⟩, hne _ (by decide)⟩, hne _ (by decide)⟩

theorem Spells.head {s : Bytes} {shape : Shape} (h : Spells s shape) :
    ∃ b s', s = b :: s' ∧ Opens b := by
  induction h with
  | null | yes | no => exact ⟨_, _, rfl, by decide, by decide, by decide⟩
  | number text =>
    obtain ⟨b, l', rfl, hb⟩ := text.head
    exact ⟨b, l', rfl, (numberHead_ne hb).2.2.2.2.2.2⟩
  | string | emptyArray | array | emptyObject | object | lastMember | member =>
    exact ⟨_, _, rfl, by decide, by decide, by decide⟩
  | lastItem _ _ ih | item _ _ _ _ ih _ =>
    obtain ⟨b, s', rfl, hb⟩ := ih
    exact ⟨b, _, rfl, hb⟩

theorem Spells.skipSpace {s : Bytes} {shape : Shape} (h : Spells s shape) {ws : Bytes}
    (hws : Space ws) (more : Bytes) : skipSpace (ws ++ (s ++ more)) = s ++ more := by
  obtain ⟨b, s', rfl, hb⟩ := h.head
  rw [skipSpace_append hws]
  exact skipSpace_cons hb.notSpace _

theorem ends_space {ws more : Bytes} (hws : Space ws) (hmore : Ends more) : Ends (ws ++ more) := by
  cases ws with
  | nil => exact hmore
  | cons b =>
    intro c hc
    cases hc
    have hb : isSpace b = true := hws b List.mem_cons_self
    unfold isSpace at hb
    simp only [Bool.or_eq_true, beq_iff_eq] at hb
    rcases hb with ((rfl | rfl) | rfl) | rfl <;> decide

theorem ends_cons {b : UInt8} (h : isNumberByte b = false) (more : Bytes) : Ends (b :: more) := by
  intro c hc
  cases hc
  exact h

theorem ends_nil : Ends [] := fun _ h => nomatch h

theorem Space.ends {ws : Bytes} (h : Space ws) : Ends ws := by
  have hends := ends_space h ends_nil
  rwa [List.append_nil] at hends

theorem Space.skip {ws : Bytes} (h : Space ws) : Json.skipSpace ws = [] := by
  have hskip := skipSpace_append h []
  rwa [List.append_nil] at hskip

/-! ### Completeness -/

def Reads (n : ℕ) (bs : Bytes) (rest : Bytes) : Shape → Prop
  | .value v => parseValue n bs = some (v, rest)
  | .items xs => parseItems n bs = some (xs, rest)
  | .members ms => parseMembers n bs = some (ms, rest)

theorem parseValue_object {n : ℕ} {ws s : Bytes} {ms : Members} (hws : Space ws)
    (h : Spells s (.members ms)) {more rest : Bytes}
    (hread : Reads n (s ++ more) rest (.members ms)) :
    parseValue (n + 1) (123 :: (ws ++ (s ++ more))) = some (.obj ms, rest) := by
  have hskip := h.skipSpace hws more
  obtain ⟨b, s', rfl, hb⟩ := h.head
  rw [List.cons_append] at hskip hread
  unfold parseValue
  rw [if_pos (by decide), List.cons_append, hskip]
  dsimp only
  rw [if_neg (by simpa using hb.notBrace), hread]
  rfl

theorem parseValue_array {n : ℕ} {ws s : Bytes} {xs : List (Bytes × Json)} (hws : Space ws)
    (h : Spells s (.items xs)) {more rest : Bytes} (hread : Reads n (s ++ more) rest (.items xs)) :
    parseValue (n + 1) (91 :: (ws ++ (s ++ more))) = some (.arr xs, rest) := by
  have hskip := h.skipSpace hws more
  obtain ⟨b, s', rfl, hb⟩ := h.head
  rw [List.cons_append] at hskip hread
  unfold parseValue
  rw [if_neg (by decide), if_pos (by decide), List.cons_append, hskip]
  dsimp only
  rw [if_neg (by simpa using hb.notBracket), hread]
  rfl

theorem parseValue_number {n : ℕ} {l more : Bytes} (h : NumberText l) (hmore : Ends more) :
    parseValue (n + 1) (l ++ more) = some (.num l, more) := by
  have hread := h.complete hmore
  obtain ⟨b, l', rfl, hb⟩ := h.head
  obtain ⟨h1, h2, h3, h4, h5, h6, -⟩ := numberHead_ne hb
  rw [List.cons_append] at hread ⊢
  unfold parseValue
  rw [if_neg (by simpa using h1), if_neg (by simpa using h2), if_neg (by simpa using h3),
    if_neg (by simpa using h4), if_neg (by simpa using h5), if_neg (by simpa using h6), hread]
  rfl

def Follows (shape : Shape) (more : Bytes) : Prop := ∀ l, shape = .value (.num l) → Ends more

theorem follows_ends {shape : Shape} {more : Bytes} (h : Ends more) : Follows shape more :=
  fun _ _ => h

theorem Spells.complete {s : Bytes} {shape : Shape} (h : Spells s shape) :
    ∀ n, s.length ≤ n → ∀ more, Follows shape more → Reads n (s ++ more) more shape := by
  induction h with
  | null | yes | no =>
    intro n hn more _
    match n, hn with
    | n + 1, _ => rfl
  | number text =>
    intro n hn more hmore
    obtain ⟨b, l', rfl, -⟩ := text.head
    match n, hn with
    | n + 1, _ => exact parseValue_number text (hmore _ rfl)
  | string text =>
    intro n hn more _
    match n, hn with
    | n + 1, hn =>
      have hread := text.complete n (Nat.le_of_succ_le_succ hn) more
      exact congrArg (Option.map _) hread
  | @emptyArray ws space =>
    intro n hn more _
    match n, hn with
    | n + 1, _ =>
      show parseValue (n + 1) (91 :: ((ws ++ [93]) ++ more)) = _
      unfold parseValue
      rw [if_neg (by decide), if_pos (by decide), List.append_assoc, skipSpace_append space]
      rfl
  | array space inner ih =>
    intro n hn more _
    match n, hn with
    | n + 1, hn =>
      simp only [List.length_cons, List.length_append] at hn
      have hread := ih n (by omega) more (fun _ h => nomatch h)
      rw [List.cons_append, List.append_assoc]
      exact parseValue_array space inner hread
  | @emptyObject ws space =>
    intro n hn more _
    match n, hn with
    | n + 1, _ =>
      show parseValue (n + 1) (123 :: ((ws ++ [125]) ++ more)) = _
      unfold parseValue
      rw [if_pos (by decide), List.append_assoc, skipSpace_append space]
      rfl
  | object space inner ih =>
    intro n hn more _
    match n, hn with
    | n + 1, hn =>
      simp only [List.length_cons, List.length_append] at hn
      have hread := ih n (by omega) more (fun _ h => nomatch h)
      rw [List.cons_append, List.append_assoc]
      exact parseValue_object space inner hread
  | @lastItem s ws v item space ih =>
    intro n hn more _
    simp only [List.length_append, List.length_cons, List.length_nil] at hn
    obtain ⟨n, rfl⟩ : ∃ m, n = m + 1 := ⟨n - 1, by omega⟩
    have hends : Ends (ws ++ 93 :: more) := ends_space space (ends_cons (by decide) more)
    have hread : parseValue n (s ++ (ws ++ 93 :: more)) = _ := ih n (by omega) _ (follows_ends hends)
    have hshape : (s ++ (ws ++ [93])) ++ more = s ++ (ws ++ 93 :: more) := by simp
    show parseItems (n + 1) _ = _
    rw [hshape]
    unfold parseItems
    rw [hread]
    dsimp only
    rw [skipSpace_append space, skipSpace_cons (by decide), consumed_append]
    rfl
  | @item s ws ws' t v xs item space space' others ih ih' =>
    intro n hn more _
    simp only [List.length_append, List.length_cons] at hn
    obtain ⟨n, rfl⟩ : ∃ m, n = m + 1 := ⟨n - 1, by omega⟩
    have hends : Ends (ws ++ 44 :: (ws' ++ (t ++ more))) :=
      ends_space space (ends_cons (by decide) _)
    have hread : parseValue n (s ++ (ws ++ 44 :: (ws' ++ (t ++ more)))) = _ :=
      ih n (by omega) _ (follows_ends hends)
    have hothers : parseItems n (t ++ more) = _ := ih' n (by omega) more (fun _ h => nomatch h)
    have hshape : (s ++ (ws ++ 44 :: (ws' ++ t))) ++ more
        = s ++ (ws ++ 44 :: (ws' ++ (t ++ more))) := by simp
    show parseItems (n + 1) _ = _
    rw [hshape]
    unfold parseItems
    rw [hread]
    dsimp only
    rw [skipSpace_append space, skipSpace_cons (by decide), consumed_append]
    dsimp only
    rw [if_neg (by decide), if_pos (by decide), others.skipSpace space', hothers]
    rfl
  | @lastMember k key a b s c v name ha hb value hc ih =>
    intro n hn more _
    match n, hn with
    | n + 1, hn =>
      simp only [List.length_append, List.length_cons, List.length_nil] at hn
      have hends : Ends (c ++ 125 :: more) := ends_space hc (ends_cons (by decide) more)
      have hread : parseValue n (s ++ (c ++ 125 :: more)) = _ := ih n (by omega) _ (follows_ends hends)
      have hshape : (34 :: (k ++ (a ++ 58 :: (b ++ (s ++ (c ++ [125])))))) ++ more
          = 34 :: (k ++ (a ++ 58 :: (b ++ (s ++ (c ++ 125 :: more))))) := by simp
      have hname := name.complete n (by omega) (a ++ 58 :: (b ++ (s ++ (c ++ 125 :: more))))
      show parseMembers (n + 1) _ = _
      rw [hshape]
      unfold parseMembers
      rw [if_pos (by decide), hname]
      dsimp only
      rw [skipSpace_append ha, skipSpace_cons (by decide)]
      dsimp only
      rw [if_pos (by decide), value.skipSpace hb, hread]
      dsimp only
      rw [skipSpace_append hc, skipSpace_cons (by decide), consumed_append]
      rfl
  | @member k key a b s c d t v ms name ha hb value hc hd others ih ih' =>
    intro n hn more _
    match n, hn with
    | n + 1, hn =>
      simp only [List.length_append, List.length_cons] at hn
      have hends : Ends (c ++ 44 :: (d ++ (t ++ more))) := ends_space hc (ends_cons (by decide) _)
      have hread : parseValue n (s ++ (c ++ 44 :: (d ++ (t ++ more)))) = _ :=
        ih n (by omega) _ (follows_ends hends)
      have hothers : parseMembers n (t ++ more) = _ := ih' n (by omega) more (fun _ h => nomatch h)
      have hshape : (34 :: (k ++ (a ++ 58 :: (b ++ (s ++ (c ++ 44 :: (d ++ t))))))) ++ more
          = 34 :: (k ++ (a ++ 58 :: (b ++ (s ++ (c ++ 44 :: (d ++ (t ++ more))))))) := by
        simp
      have hname := name.complete n (by omega)
        (a ++ 58 :: (b ++ (s ++ (c ++ 44 :: (d ++ (t ++ more))))))
      show parseMembers (n + 1) _ = _
      rw [hshape]
      unfold parseMembers
      rw [if_pos (by decide), hname]
      dsimp only
      rw [skipSpace_append ha, skipSpace_cons (by decide)]
      dsimp only
      rw [if_pos (by decide), value.skipSpace hb, hread]
      dsimp only
      rw [skipSpace_append hc, skipSpace_cons (by decide), consumed_append]
      dsimp only
      rw [if_neg (by decide), if_pos (by decide), others.skipSpace hd, hothers]
      rfl

/-! ### Soundness -/

def Sound (n : ℕ) : Prop :=
  ∀ bs rest shape, Reads n bs rest shape → ∃ s, bs = s ++ rest ∧ Spells s shape

theorem keyword_sound {w bs rest : Bytes} (h : keyword w bs = some rest) : bs = w ++ rest := by
  induction w generalizing bs with
  | nil =>
    cases h
    rfl
  | cons c w ih =>
    cases bs with
    | nil => cases h
    | cons b bs =>
      unfold keyword at h
      split at h
      · rename_i hb
        rw [beq_iff_eq] at hb
        rw [ih h, hb]
        rfl
      · cases h

theorem parseValue_sound {n : ℕ} (ih : Sound n) {bs rest : Bytes} {v : Json}
    (h : parseValue (n + 1) bs = some (v, rest)) : ∃ s, bs = s ++ rest ∧ Spells s (.value v) := by
  cases bs with
  | nil => cases h
  | cons =>
    unfold parseValue at h
    split at h
    · rename_i hb
      cases beq_iff_eq.mp hb
      split at h
      · cases h
      · rename_i c cs hskip
        obtain ⟨ws, hws, rfl⟩ := skipSpace_eq_cons hskip
        split at h
        · rename_i hc
          cases beq_iff_eq.mp hc
          cases h
          exact ⟨123 :: (ws ++ [125]), by simp, .emptyObject hws⟩
        · obtain ⟨⟨ms, rest'⟩, hread, heq⟩ := Option.map_eq_some_iff.mp h
          cases heq
          obtain ⟨s, hs, hspells⟩ := ih _ _ (.members ms) hread
          exact ⟨123 :: (ws ++ s), by rw [hs]; simp, .object hws hspells⟩
    · split at h
      · rename_i hb
        cases beq_iff_eq.mp hb
        split at h
        · cases h
        · rename_i c cs hskip
          obtain ⟨ws, hws, rfl⟩ := skipSpace_eq_cons hskip
          split at h
          · rename_i hc
            cases beq_iff_eq.mp hc
            cases h
            exact ⟨91 :: (ws ++ [93]), by simp, .emptyArray hws⟩
          · obtain ⟨⟨xs, rest'⟩, hread, heq⟩ := Option.map_eq_some_iff.mp h
            cases heq
            obtain ⟨s, hs, hspells⟩ := ih _ _ (.items xs) hread
            exact ⟨91 :: (ws ++ s), by rw [hs]; simp, .array hws hspells⟩
      · split at h
        · rename_i hb
          cases beq_iff_eq.mp hb
          obtain ⟨⟨v, rest'⟩, hread, heq⟩ := Option.map_eq_some_iff.mp h
          cases heq
          obtain ⟨s, rfl, htext⟩ := stringBody_sound hread
          exact ⟨34 :: s, rfl, .string htext⟩
        · split at h
          · rename_i hb
            cases beq_iff_eq.mp hb
            obtain ⟨rest', hread, heq⟩ := Option.map_eq_some_iff.mp h
            cases heq
            exact ⟨[116, 114, 117, 101], by rw [keyword_sound hread]; rfl, .yes⟩
          · split at h
            · rename_i hb
              cases beq_iff_eq.mp hb
              obtain ⟨rest', hread, heq⟩ := Option.map_eq_some_iff.mp h
              cases heq
              exact ⟨[102, 97, 108, 115, 101], by rw [keyword_sound hread]; rfl, .no⟩
            · split at h
              · rename_i hb
                cases beq_iff_eq.mp hb
                obtain ⟨rest', hread, heq⟩ := Option.map_eq_some_iff.mp h
                cases heq
                exact ⟨[110, 117, 108, 108], by rw [keyword_sound hread]; rfl, .null⟩
              · obtain ⟨⟨l, rest'⟩, hread, heq⟩ := Option.map_eq_some_iff.mp h
                cases heq
                obtain ⟨hbs, htext⟩ := number_sound hread
                exact ⟨l, hbs, .number htext⟩

theorem parseItems_sound {n : ℕ} (ih : Sound n) {bs rest : Bytes} {xs : List (Bytes × Json)}
    (h : parseItems (n + 1) bs = some (xs, rest)) : ∃ s, bs = s ++ rest ∧ Spells s (.items xs) := by
  unfold parseItems at h
  split at h
  · cases h
  · rename_i v after hvalue
    obtain ⟨s, rfl, hspells⟩ := ih _ _ (.value v) hvalue
    rw [consumed_append] at h
    split at h
    · cases h
    · rename_i c cs hskip
      obtain ⟨ws, hws, rfl⟩ := skipSpace_eq_cons hskip
      split at h
      · rename_i hc
        cases beq_iff_eq.mp hc
        cases h
        exact ⟨s ++ (ws ++ [93]), by simp, .lastItem hspells hws⟩
      · split at h
        · rename_i hc
          cases beq_iff_eq.mp hc
          obtain ⟨⟨others, rest'⟩, hread, heq⟩ := Option.map_eq_some_iff.mp h
          cases heq
          obtain ⟨t, ht, hothers⟩ := ih _ _ (.items others) hread
          obtain ⟨ws', hws', hcs⟩ := skipSpace_split cs
          refine ⟨s ++ (ws ++ 44 :: (ws' ++ t)), ?_, .item hspells hws hws' hothers⟩
          rw [hcs, ht]
          simp
        · cases h

theorem parseMembers_sound {n : ℕ} (ih : Sound n) {bs rest : Bytes} {ms : Members}
    (h : parseMembers (n + 1) bs = some (ms, rest)) :
    ∃ s, bs = s ++ rest ∧ Spells s (.members ms) := by
  cases bs with
  | nil => cases h
  | cons =>
    unfold parseMembers at h
    split at h
    case isFalse => cases h
    rename_i hq
    cases beq_iff_eq.mp hq
    split at h
    case h_1 => cases h
    rename_i key afterName hname
    obtain ⟨k, rfl, hkey⟩ := stringBody_sound hname
    split at h
    case h_1 => cases h
    rename_i colon afterColon hskip
    obtain ⟨a, ha, rfl⟩ := skipSpace_eq_cons hskip
    split at h
    case isFalse => cases h
    rename_i hcolon
    cases beq_iff_eq.mp hcolon
    split at h
    case h_1 => cases h
    rename_i v afterValue hvalue
    obtain ⟨b, hb, hafter⟩ := skipSpace_split afterColon
    obtain ⟨s, hs, hspells⟩ := ih _ _ (.value v) hvalue
    rw [hs, consumed_append] at h
    rw [hs] at hafter
    subst hafter
    dsimp only at h
    split at h
    · cases h
    · rename_i c cs hskip'
      obtain ⟨ws, hws, rfl⟩ := skipSpace_eq_cons hskip'
      split at h
      · rename_i hc
        cases beq_iff_eq.mp hc
        cases h
        exact ⟨_, by simp, .lastMember hkey ha hb hspells hws⟩
      · split at h
        · rename_i hc
          cases beq_iff_eq.mp hc
          obtain ⟨⟨others, rest'⟩, hread, heq⟩ := Option.map_eq_some_iff.mp h
          cases heq
          obtain ⟨t, ht, hothers⟩ := ih _ _ (.members others) hread
          obtain ⟨d, hd, hcs⟩ := skipSpace_split cs
          refine ⟨_, ?_, .member hkey ha hb hspells hws hd hothers⟩
          rw [hcs, ht]
          simp
        · cases h

theorem read_sound (n : ℕ) : Sound n := by
  induction n with
  | zero =>
    intro bs rest shape h
    cases shape <;> cases h
  | succ n ih =>
    intro bs rest shape h
    cases shape with
    | value v => exact parseValue_sound ih h
    | items xs => exact parseItems_sound ih h
    | members ms => exact parseMembers_sound ih h

/-! ### Whole documents -/

theorem Spells.read {s : Bytes} {v : Json} (h : Spells s (.value v)) {n : ℕ} (hn : s.length ≤ n)
    {more : Bytes} (hmore : Ends more) : parseValue n (s ++ more) = some (v, more) :=
  h.complete n hn more (follows_ends hmore)

theorem unmarshal_eq_some (bs : Bytes) (v : Json) :
    unmarshal bs = some v ↔
      ∃ a s b, bs = a ++ (s ++ b) ∧ Space a ∧ Space b ∧ Spells s (.value v) := by
  unfold unmarshal
  constructor
  · intro h
    split at h
    · rename_i w rest hread
      split at h
      · rename_i hrest
        cases h
        obtain ⟨s, hs, hspells⟩ := read_sound _ _ _ (.value v) hread
        obtain ⟨a, ha, hbs⟩ := skipSpace_split bs
        obtain ⟨b, hb, hrest'⟩ := skipSpace_split rest
        rw [List.isEmpty_iff.mp hrest, List.append_nil] at hrest'
        subst hrest'
        exact ⟨a, s, rest, by rw [← hs]; exact hbs, ha, hb, hspells⟩
      · cases h
    · cases h
  · rintro ⟨a, s, b, rfl, ha, hb, h⟩
    have hfuel : s.length ≤ (a ++ (s ++ b)).length + 1 := by
      simp only [List.length_append]
      omega
    rw [h.skipSpace ha, h.read hfuel hb.ends]
    dsimp only
    rw [hb.skip]
    rfl

theorem Spells.unmarshal {s : Bytes} {v : Json} (h : Spells s (.value v)) :
    unmarshal s = some v :=
  (unmarshal_eq_some s v).mpr ⟨[], s, [], by simp, space_nil, space_nil, h⟩

theorem Spells.number_text {s l : Bytes} (h : Spells s (.value (.num l))) :
    s = l ∧ NumberText l := by
  generalize hshape : Shape.value (.num l) = shape at h
  cases h with
  | number text =>
    cases hshape
    exact ⟨rfl, text⟩
  | _ => cases hshape

theorem Spells.cut {t : Bytes} {ms : Members} (h : Spells (123 :: t) (.value (.obj ms)))
    {p q : Bytes} (hsplit : 123 :: t = p ++ q) (hq : q ≠ []) (n : ℕ) : parseValue n p = none := by
  cases hread : parseValue n p with
  | none => rfl
  | some r =>
    obtain ⟨w, rest⟩ := r
    obtain ⟨s, rfl, hspells⟩ := read_sound n _ _ (.value w) hread
    -- the first byte makes the prefix an object as well, which ends by itself
    have hobject : Follows (.value w) (rest ++ q) := by
      obtain ⟨b, s', rfl, -⟩ := hspells.head
      obtain ⟨rfl, -⟩ := List.cons.inj hsplit
      intro l hl
      cases hl
      obtain ⟨rfl, text⟩ := hspells.number_text
      obtain ⟨b, l', hl, hb⟩ := text.head
      obtain ⟨rfl, -⟩ := List.cons.inj hl
      exact absurd rfl (numberHead_ne hb).1
    rw [List.append_assoc] at hsplit
    have hlength := congrArg List.length hsplit
    rw [List.length_append] at hlength
    have hwhole := h.complete (123 :: t).length (le_refl _) [] (fun _ hnum => nomatch hnum)
    have hpart := hspells.complete (123 :: t).length (by omega) (rest ++ q) hobject
    rw [List.append_nil] at hwhole
    rw [← hsplit] at hpart
    have hsame : (w, rest ++ q) = (.obj ms, []) := Option.some.inj (hpart.symm.trans hwhole)
    have hnil := congrArg Prod.snd hsame
    exact absurd (List.append_eq_nil_iff.mp hnil).2 hq

end Snagline.Kit.Json
