import MailMerge.FieldFile
import MailMerge.Proofs.Leaves
import MailMerge.Proofs.Works
import Mathlib.Data.List.TakeWhile

/-!
# How far in JSON text goes

What is read of a text is a suffix of it, so every list and mapping around a value has used up a
bracket (`allTake`). Text without long rows of digits, and with few enough brackets that there is
room for all of them, is read unless it is not of its form (`parse_refuses`), and its values have
texts where there is room for these (`Made.renderAt`).
-/

namespace MailMerge.Json

/-- The lists and mappings that begin in a text, and whatever else has a bracket that opens. -/
def brackets (cs : List Char) : Nat := cs.countP fun c => c = '[' || c = '\x7b'

/-- Values of JSON text, with at most `n` lists and mappings around each other. -/
inductive Made : Nat → Value → Prop
  | null {n : Nat} : Made n .null
  | bool {n : Nat} {b : Bool} : Made n (.bool b)
  | int {n : Nat} {i : Int} (h : i.natAbs < Nat.pow 10 Decimal.maxIntegerDigits) : Made n (.int i)
  | float {n : Nat} {x : Float} : Made n (.float x)
  | text {n : Nat} {ps : Points} : Made n (.text ps)
  | list {n : Nat} {items : List Value} (h : ∀ v ∈ items, Made n v) : Made (n + 1) (.list items)
  | mapping {n : Nat} {entries : List (Value × Value)}
      (names : ∀ e ∈ entries, ∃ ps, e.1 = .text ps) (h : ∀ e ∈ entries, Made n e.2) :
      Made (n + 1) (.mapping entries)

/-- Why a text inside of `depth` lists and mappings cannot be read: it is not of its form, has a
long row of digits or begins a list or mapping without room for it, inside of at most `depth` and as
many more as there are brackets in front. -/
inductive Beyond (room : Room) (depth : Nat) (cs : List Char) : Fault → Prop
  | malformed : Beyond room depth cs .malformed
  | longInteger {digits : List Char} (run : digits <:+: cs) (hd : digits.all isDigit)
      (long : Decimal.maxIntegerDigits < digits.length) :
      Beyond room depth cs (.longInteger digits.length)
  | tooDeep {inList : Bool} {d : Nat} {c : Char} {rest : List Char} (opening : c = '[' ∨ c = '\x7b')
      (begun : c :: rest <:+ cs) (around : d + brackets (c :: rest) ≤ depth + brackets cs)
      (full : room d rest = false) : Beyond room depth cs (.tooDeep inList)

/-- What is taken off the front of a text is good, or there is a reason why nothing is. -/
def Takes {α : Type} (cs : List Char) (x : Parsed α) (good : α → Prop) (bad : Fault → Prop) :
    Prop :=
  match x with
  | .ok (a, rest) => rest <:+ cs ∧ good a
  | .error f => bad f

variable {α : Type} {x : Parsed α} {good good' : α → Prop} {bad bad' : Fault → Prop}
  {cs tail rest : List Char} {n m depth : Nat} {room : Room}

theorem Takes.mono (h : Takes tail x good bad) (ht : tail <:+ cs) (hg : ∀ a, good a → good' a)
    (hb : ∀ f, bad f → bad' f) : Takes cs x good' bad' := by
  unfold Takes at *
  split at h
  · exact ⟨h.1.trans ht, hg _ h.2⟩
  · exact hb _ h

theorem Takes.cases (h : Takes cs x good bad) :
    (∃ a rest, x = .ok (a, rest) ∧ rest <:+ cs ∧ good a) ∨ ∃ f, x = .error f ∧ bad f := by
  unfold Takes at h
  split at h
  · exact .inl ⟨_, _, rfl, h⟩
  · exact .inr ⟨_, rfl, h⟩

theorem brackets_le (h : tail <:+ cs) : brackets tail ≤ brackets cs := h.sublist.countP_le

theorem brackets_cons_of_opening {c : Char} (h : c = '[' ∨ c = '\x7b') :
    brackets (c :: cs) = brackets cs + 1 := by
  rcases h with rfl | rfl <;> simp [brackets]

theorem Beyond.mono {f : Fault} (h : Beyond room m tail f) (ht : tail <:+ cs)
    (hn : m + brackets tail ≤ depth + brackets cs) : Beyond room depth cs f := by
  cases h with
  | malformed => exact .malformed
  | longInteger run hd long => exact .longInteger (run.trans ht.isInfix) hd long
  | tooDeep opening begun around full =>
    exact .tooDeep opening (begun.trans ht) (around.trans hn) full

theorem Beyond.of_suffix {f : Fault} (h : Beyond room depth tail f) (ht : tail <:+ cs) :
    Beyond room depth cs f := h.mono ht (Nat.add_le_add_left (brackets_le ht) depth)

theorem Made.mono {v : Value} (h : Made n v) : n ≤ m → Made m v := by
  induction h generalizing m with
  | null => exact fun _ => .null
  | bool => exact fun _ => .bool
  | int h => exact fun _ => .int h
  | float => exact fun _ => .float
  | text => exact fun _ => .text
  | list _ ih =>
    intro hm
    obtain ⟨m, rfl⟩ := Nat.exists_eq_add_of_le' (Nat.le_of_add_left_le hm)
    exact .list fun v hv => ih v hv (Nat.le_of_succ_le_succ hm)
  | mapping names _ ih =>
    intro hm
    obtain ⟨m, rfl⟩ := Nat.exists_eq_add_of_le' (Nat.le_of_add_left_le hm)
    exact .mapping names fun e he => ih e he (Nat.le_of_succ_le_succ hm)

/-! ## Scalars -/

theorem skipSpace_suffix (cs : List Char) : skipSpace cs <:+ cs := List.dropWhile_suffix _

/-- What is behind a sign that has space in front of it. -/
theorem suffix_of_skipSpace {c : Char} (h : skipSpace rest = c :: tail) (hr : rest <:+ cs) :
    tail <:+ cs :=
  (List.suffix_cons c tail).trans (h ▸ (skipSpace_suffix rest).trans hr)

theorem hex4?_suffix (h : hex4? cs = some (n, rest)) : rest <:+ cs := by
  unfold hex4? at h
  split at h
  · next a b c d more =>
    simp only [Option.bind_eq_bind, Option.bind_eq_some_iff] at h
    obtain ⟨_, -, _, -, _, -, _, -, h⟩ := h
    obtain ⟨-, rfl⟩ := Prod.mk.inj (Option.some.inj h)
    exact ⟨[a, b, c, d], rfl⟩
  · cases h

theorem pairUp_suffix {p : CodePoint} (h : pairUp n cs = some (p, rest)) : rest <:+ cs := by
  unfold pairUp at h
  split at h
  · next more =>
    split at h
    · simp only [Option.bind_eq_bind, Option.bind_eq_some_iff] at h
      obtain ⟨⟨low, after⟩, hlow, h⟩ := h
      split at h
      · obtain ⟨-, rfl⟩ := Prod.mk.inj (Option.some.inj h)
        exact (hex4?_suffix hlow).trans ⟨['\\', 'u'], rfl⟩
      · obtain ⟨-, rfl⟩ := Prod.mk.inj (Option.some.inj h)
        exact List.suffix_rfl
    · obtain ⟨-, rfl⟩ := Prod.mk.inj (Option.some.inj h)
      exact List.suffix_rfl
  · obtain ⟨-, rfl⟩ := Prod.mk.inj (Option.some.inj h)
    exact List.suffix_rfl

theorem escaped?_suffix {p : CodePoint} (h : escaped? cs = some (p, rest)) : rest <:+ cs := by
  unfold escaped? at h
  split at h
  case h_9 more =>
    obtain ⟨⟨n, after⟩, hn, h⟩ := Option.bind_eq_some_iff.1 h
    exact (pairUp_suffix h).trans ((hex4?_suffix hn).trans (List.suffix_cons 'u' more))
  case h_10 => cases h
  all_goals
    obtain ⟨-, rfl⟩ := Prod.mk.inj (Option.some.inj h)
    exact List.suffix_cons _ _

theorem string_takes (fuel : Nat) (acc : Points) (cs : List Char) :
    Takes cs (string fuel acc cs) (fun _ => True) (· = .malformed) := by
  fun_induction string fuel acc cs with
  | case1 => exact ⟨List.suffix_cons _ _, trivial⟩
  | case2 acc fuel rest c after h ih =>
    exact ih.mono ((escaped?_suffix h).trans (List.suffix_cons _ _)) (fun _ => id) fun _ => id
  | case3 => exact rfl
  | case4 => exact rfl
  | case5 acc fuel c rest _ _ _ ih =>
    exact ih.mono (List.suffix_cons _ _) (fun _ => id) fun _ => id
  | case6 => exact rfl

theorem fraction_suffix (cs : List Char) : (fraction cs).2 <:+ cs := by
  unfold fraction
  split
  · split
    · exact List.suffix_rfl
    · exact (List.dropWhile_suffix _).trans (List.suffix_cons _ _)
  · exact List.suffix_rfl

theorem exponent?_suffix (cs : List Char) : (exponent? cs).2 <:+ cs := by
  unfold exponent?
  split
  · next e rest =>
    split
    · split
      next negative more heq =>
      have hmore : more <:+ rest := by
        split at heq
        all_goals obtain rfl := congrArg Prod.snd heq
        · exact List.suffix_cons _ _
        · exact List.suffix_cons _ _
        · exact List.suffix_rfl
      split
      · exact List.suffix_rfl
      · exact (List.dropWhile_suffix _).trans (hmore.trans (List.suffix_cons _ _))
    · exact List.suffix_rfl
  · exact List.suffix_rfl

theorem pow_le_pow {m n : Nat} (h : m ≤ n) : Nat.pow 10 m ≤ Nat.pow 10 n :=
  Nat.pow_le_pow_right (by decide) h

theorem digitsValue_lt {ds : List Char} (h : ∀ c ∈ ds, isDigit c = true) :
    digitsValue ds < Nat.pow 10 ds.length := by
  have hfold : ∀ (ds : List Char) (n : Nat), (∀ c ∈ ds, isDigit c = true) →
      ds.foldl (fun n c => n * 10 + (c.toNat - '0'.toNat)) n < (n + 1) * 10 ^ ds.length := by
    intro ds
    induction ds with
    | nil => simp
    | cons c ds ih =>
      intro n hds
      have hc : c.toNat - '0'.toNat < 10 := by
        have h9 : c ≤ '9' := by
          have := hds c List.mem_cons_self
          simp only [isDigit, Bool.and_eq_true, decide_eq_true_eq] at this
          exact this.2
        have : c.toNat ≤ '9'.toNat := h9
        have : '9'.toNat = '0'.toNat + 9 := rfl
        omega
      rw [List.foldl_cons, List.length_cons]
      calc _ < (n * 10 + (c.toNat - '0'.toNat) + 1) * 10 ^ ds.length :=
            ih _ fun d hd => hds d (List.mem_cons_of_mem c hd)
        _ ≤ ((n + 1) * 10) * 10 ^ ds.length := Nat.mul_le_mul_right _ (by omega)
        _ = _ := by rw [Nat.pow_succ, Nat.mul_assoc, Nat.mul_comm 10]
  simpa [digitsValue] using hfold ds 0 h

theorem unsigned_takes (negative : Bool) (cs : List Char) :
    Takes cs (unsigned negative cs) (Made n) (Beyond room depth cs) := by
  unfold unsigned
  extract_lets whole
  have hdigits : (∀ c ∈ whole, isDigit c = true) ∧ whole <+: cs := by
    unfold whole
    split
    · exact ⟨List.forall_mem_singleton.2 rfl, _, rfl⟩
    · exact ⟨fun c hc => List.mem_takeWhile_imp hc, List.takeWhile_prefix _⟩
  clear_value whole
  split
  · exact .malformed
  have hrest : (exponent? (fraction (cs.drop whole.length)).2).2 <:+ cs :=
    (exponent?_suffix _).trans ((fraction_suffix _).trans (List.drop_suffix _ cs))
  generalize fraction (cs.drop whole.length) = x at hrest ⊢
  obtain ⟨decimals, behind⟩ := x
  dsimp only at hrest ⊢
  generalize exponent? behind = y at hrest ⊢
  obtain ⟨exponent, rest⟩ := y
  dsimp only
  split
  · split
    · next hlong =>
      exact Beyond.longInteger hdigits.2.isInfix (List.all_eq_true.2 hdigits.1) hlong
    · next hlong =>
      refine ⟨hrest, .int ?_⟩
      have hlt : digitsValue whole < Nat.pow 10 Decimal.maxIntegerDigits :=
        (digitsValue_lt hdigits.1).trans_le (pow_le_pow (not_lt.1 hlong))
      split
      · rwa [Int.natAbs_neg]
      · exact hlt
  · exact ⟨hrest, .float⟩

theorem scalar_takes (cs : List Char) : Takes cs (scalar cs) (Made n) (Beyond room depth cs) := by
  unfold scalar
  split
  · exact ⟨⟨"null".toList, rfl⟩, .null⟩
  · exact ⟨⟨"true".toList, rfl⟩, .bool⟩
  · exact ⟨⟨"false".toList, rfl⟩, .bool⟩
  · exact ⟨⟨"NaN".toList, rfl⟩, .float⟩
  · exact ⟨⟨"Infinity".toList, rfl⟩, .float⟩
  · exact ⟨⟨"-Infinity".toList, rfl⟩, .float⟩
  · exact (unsigned_takes true _).mono (List.suffix_cons _ _) (fun _ => id) fun _ h =>
      h.of_suffix (List.suffix_cons _ _)
  · exact unsigned_takes false cs

/-- What holds of the entries of a mapping, by their keys and by their values. -/
theorem forall_insertEntry {α : Type} {p : Value → Prop} {q : α → Prop} {k : Value} {v : α}
    (hk : p k) (hv : q v) : ∀ {entries : List (Value × α)}, (∀ e ∈ entries, p e.1 ∧ q e.2) →
      ∀ e ∈ Value.insertEntry k v entries, p e.1 ∧ q e.2
  | [], _, e, he => by
    obtain rfl := List.mem_singleton.1 he
    exact ⟨hk, hv⟩
  | e' :: entries, h, e, he => by
    have h' := h e' List.mem_cons_self
    have hrest : ∀ e ∈ entries, p e.1 ∧ q e.2 := fun e he => h e (List.mem_cons_of_mem e' he)
    rw [Value.insertEntry] at he
    split at he
    · rcases List.mem_cons.1 he with rfl | he
      · exact ⟨h'.1, hv⟩
      · exact hrest e he
    · rcases List.mem_cons.1 he with rfl | he
      · exact h'
      · exact forall_insertEntry hk hv hrest e he

/-! ## Lists and mappings -/

/-- A list or mapping, by its opening bracket and what is behind it. -/
theorem opening_takes {c : Char} {inList : Bool} {x : Parsed Value} (hc : c = '[' ∨ c = '\x7b')
    (h : Takes rest x (Made (brackets rest + 1)) (Beyond room (depth + 1) rest)) :
    Takes (c :: rest) (if room depth rest then x else .error (.tooDeep inList))
      (Made (brackets (c :: rest))) (Beyond room depth (c :: rest)) := by
  have hn : brackets (c :: rest) = brackets rest + 1 := brackets_cons_of_opening hc
  split
  · exact h.mono (List.suffix_cons c rest) (fun _ h => hn ▸ h) fun f hf =>
      hf.mono (List.suffix_cons c rest) (by omega)
  · next hfull => exact Beyond.tooDeep hc List.suffix_rfl le_rfl (by simpa using hfull)

/-- What is known of the readers that have some fuel. -/
structure AllTake (room : Room) (fuel : Nat) : Prop where
  value : ∀ depth cs, Takes cs (value room fuel depth cs) (Made (brackets cs)) (Beyond room depth cs)
  items : ∀ depth n acc cs, (∀ v ∈ acc, Made n v) → brackets cs ≤ n →
    Takes cs (items room fuel depth acc cs) (Made (n + 1)) (Beyond room depth cs)
  members : ∀ depth n acc cs, (∀ e ∈ acc, (∃ name, e.1 = .text name) ∧ Made n e.2) →
    brackets cs ≤ n → Takes cs (members room fuel depth acc cs) (Made (n + 1)) (Beyond room depth cs)

namespace AllTake

variable {fuel : Nat} (h : AllTake room fuel)

include h

theorem value_succ (depth : Nat) (cs : List Char) :
    Takes cs (Json.value room (fuel + 1) depth cs) (Made (brackets cs)) (Beyond room depth cs) := by
  unfold Json.value
  split
  · next rest =>
    obtain ⟨text, rest', h, hr, -⟩ | ⟨f, h, rfl⟩ := (string_takes fuel [] rest).cases <;> rw [h]
    · exact ⟨hr.trans (List.suffix_cons _ _), .text⟩
    · exact .malformed
  · next rest =>
    refine opening_takes (.inl rfl) ?_
    split
    · next h => exact ⟨suffix_of_skipSpace h List.suffix_rfl, .list (by simp)⟩
    · exact (h.items (depth + 1) _ [] _ (by simp) (brackets_le (skipSpace_suffix rest))).mono
        (skipSpace_suffix rest) (fun _ h => h) fun f h => h.of_suffix (skipSpace_suffix rest)
  · next rest =>
    refine opening_takes (.inr rfl) ?_
    split
    · next h => exact ⟨suffix_of_skipSpace h List.suffix_rfl, .mapping (by simp) (by simp)⟩
    · exact (h.members (depth + 1) _ [] _ (by simp) (brackets_le (skipSpace_suffix rest))).mono
        (skipSpace_suffix rest) (fun _ h => h) fun f h => h.of_suffix (skipSpace_suffix rest)
  · exact scalar_takes cs

theorem items_succ (depth n : Nat) (acc : List Value) (cs : List Char)
    (hacc : ∀ v ∈ acc, Made n v) (hn : brackets cs ≤ n) :
    Takes cs (Json.items room (fuel + 1) depth acc cs) (Made (n + 1)) (Beyond room depth cs) := by
  unfold Json.items
  obtain ⟨v, rest, hv, hr, hmade⟩ | ⟨f, hv, hf⟩ := (h.value depth cs).cases <;> rw [hv]
  case inr => exact hf
  have hacc' : ∀ w ∈ v :: acc, Made n w := by
    rintro w (_ | ⟨_, hw⟩)
    exacts [hmade.mono hn, hacc w hw]
  dsimp only
  split
  · next more hmore =>
    have hs := (skipSpace_suffix more).trans (suffix_of_skipSpace hmore hr)
    exact (h.items depth n (v :: acc) _ hacc' ((brackets_le hs).trans hn)).mono hs
      (fun _ h => h) fun f h => h.of_suffix hs
  · next more hmore =>
    exact ⟨suffix_of_skipSpace hmore hr, .list fun w hw => hacc' w (List.mem_reverse.1 hw)⟩
  · exact .malformed

theorem members_succ (depth n : Nat) (acc : List (Value × Value)) (cs : List Char)
    (hacc : ∀ e ∈ acc, (∃ name, e.1 = .text name) ∧ Made n e.2) (hn : brackets cs ≤ n) :
    Takes cs (Json.members room (fuel + 1) depth acc cs) (Made (n + 1)) (Beyond room depth cs) := by
  unfold Json.members
  split
  · next behind =>
    obtain ⟨name, rest, hname, hr, -⟩ | ⟨f, hname, rfl⟩ := (string_takes fuel [] behind).cases
    all_goals rw [hname]
    case inr => exact .malformed
    replace hr := hr.trans (List.suffix_cons '"' behind)
    dsimp only
    split
    · next more hmore =>
      have hs := (skipSpace_suffix more).trans (suffix_of_skipSpace hmore hr)
      obtain ⟨v, rest', hv, hr', hmade⟩ | ⟨f, hv, hf⟩ :=
        (h.value depth (skipSpace more)).cases <;> rw [hv]
      case inr => exact hf.of_suffix hs
      have hacc' := forall_insertEntry (p := fun k => ∃ ps, k = .text ps) ⟨name, rfl⟩
        (hmade.mono ((brackets_le hs).trans hn)) hacc
      dsimp only
      split
      · next more' hmore' =>
        have hs' := (skipSpace_suffix more').trans (suffix_of_skipSpace hmore' (hr'.trans hs))
        exact (h.members depth n _ _ hacc' ((brackets_le hs').trans hn)).mono hs'
          (fun _ h => h) fun f h => h.of_suffix hs'
      · next more' hmore' =>
        exact ⟨suffix_of_skipSpace hmore' (hr'.trans hs),
          .mapping (fun e he => (hacc' e he).1) fun e he => (hacc' e he).2⟩
      · exact .malformed
    · exact .malformed
  · exact .malformed

end AllTake

theorem allTake : ∀ fuel, AllTake room fuel
  | 0 => ⟨fun _ _ => .malformed, fun _ _ _ _ _ _ => .malformed, fun _ _ _ _ _ _ => .malformed⟩
  | fuel + 1 =>
    have h := allTake fuel
    ⟨h.value_succ, h.items_succ, h.members_succ⟩

theorem parse_made {v : Value} (h : parse room cs = .ok v) : Made (brackets cs) v := by
  rw [parse] at h
  obtain ⟨w, rest, heq, -, hw⟩ | ⟨f, heq, -⟩ :=
    ((allTake (2 * cs.length + 2)).value 0 (skipSpace cs)).cases <;> rw [heq] at h
  · simp only [bind, Except.bind] at h
    split at h
    · obtain rfl := Except.ok.inj h
      exact hw.mono (brackets_le (skipSpace_suffix cs))
    · cases h
  · cases h

theorem parse_refuses : RefusesFor (Beyond room 0 cs) (parse room cs) := by
  rw [parse]
  obtain ⟨v, rest, heq, -, -⟩ | ⟨f, heq, hf⟩ :=
    ((allTake (2 * cs.length + 2)).value 0 (skipSpace cs)).cases <;> rw [heq]
  · simp only [bind, Except.bind]
    split
    · exact refusesFor_ok
    · exact refusesFor_error .malformed
  · exact refusesFor_error (hf.of_suffix (skipSpace_suffix cs))

/-! ## Texts of values -/

theorem shownAll_ok : ∀ {items : List Value}, (∀ v ∈ items, ∃ text, v.shown = .ok text) →
    ∃ texts, Value.shownAll items = .ok texts
  | [], _ => ⟨[], by simp [Value.shownAll]⟩
  | v :: items, h => by
    obtain ⟨text, ht⟩ := h v List.mem_cons_self
    obtain ⟨texts, hts⟩ := shownAll_ok fun w hw => h w (List.mem_cons_of_mem v hw)
    exact ⟨text :: texts, by simp [Value.shownAll, ht, hts, bind, Except.bind, pure, Except.pure]⟩

theorem shownEntries_ok : ∀ {entries : List (Value × Value)},
    (∀ e ∈ entries, (∃ text, e.1.shown = .ok text) ∧ ∃ text, e.2.shown = .ok text) →
      ∃ texts, Value.shownEntries entries = .ok texts
  | [], _ => ⟨[], by simp [Value.shownEntries]⟩
  | (k, v) :: entries, h => by
    obtain ⟨⟨key, hk⟩, value, hv⟩ := h (k, v) List.mem_cons_self
    obtain ⟨texts, hts⟩ := shownEntries_ok fun w hw => h w (List.mem_cons_of_mem _ hw)
    exact ⟨(key ++ ':' :: ' ' :: value) :: texts, by
      simp [Value.shownEntries, hk, hv, hts, bind, Except.bind, pure, Except.pure]⟩

theorem Made.shown {v : Value} (h : Made n v) : ∃ text, v.shown = .ok text := by
  induction h with
  | null | bool | float | text => exact ⟨_, by rw [Value.shown]⟩
  | int h => exact ⟨_, by rw [Value.shown, Value.integerText, if_neg (not_le.2 h)]⟩
  | list _ ih =>
    obtain ⟨texts, ht⟩ := shownAll_ok ih
    exact ⟨_, by rw [Value.shown, ht]; rfl⟩
  | mapping names _ ih =>
    obtain ⟨texts, ht⟩ := shownEntries_ok fun e he => by
      obtain ⟨cs, hc⟩ := names e he
      exact ⟨⟨_, by rw [hc, Value.shown]⟩, ih e he⟩
    exact ⟨_, by rw [Value.shown, ht]; rfl⟩

theorem renderAll_refuses {room : Value.Room} {causes : Value → Value.TextFault → Prop} :
    ∀ {items : List Value}, (∀ v ∈ items, RefusesFor (causes v) (v.renderAt room depth)) →
      RefusesFor (fun fault => ∃ v ∈ items, causes v fault) (Value.renderAll room depth items)
  | [], _ => by
    rw [Value.renderAll]
    exact refusesFor_ok
  | v :: items, h => by
    rw [Value.renderAll]
    refine RefusesFor.bind (fun fault hf => ⟨v, List.mem_cons_self, h v List.mem_cons_self _ hf⟩)
      fun _ _ => ?_
    refine RefusesFor.bind (fun fault hf => ?_) fun _ _ => refusesFor_ok
    obtain ⟨w, hw, hc⟩ := renderAll_refuses (fun w hw => h w (List.mem_cons_of_mem v hw)) fault hf
    exact ⟨w, List.mem_cons_of_mem v hw, hc⟩

theorem Made.leaf {v : Value} {room : Value.Room} (h : Made n v) (hv : v.items? = none)
    (hfits : room.fits depth v = true) : ∃ text, v.renderAt room depth = .ok text := by
  cases h with
  | null | bool | text => simp [Value.renderAt, hfits]
  | int h =>
    obtain ⟨text, ht⟩ := (Made.int (n := 0) h).shown
    exact ⟨points text, by simp [Value.renderAt, hfits, Value.alone, ht]⟩
  | float => simp [Value.renderAt, hfits, Value.alone, Value.shown]
  | list => cases hv
  | mapping names h =>
    obtain ⟨text, ht⟩ := (Made.mapping names h).shown
    exact ⟨points text, by simp [Value.renderAt, hfits, Value.alone, ht]⟩

/-- A value of a text has a text, unless there is no room for it or for what is in it. -/
theorem Made.renderAt {v : Value} {room : Value.Room} (h : Made n v) : ∀ depth, RefusesFor
    (fun fault => fault = .endless ∧ ¬room.Takes depth v) (v.renderAt room depth) := by
  have hfull : ∀ {v : Value} {depth : Nat}, room.fits depth v = false → RefusesFor
      (fun fault => fault = .endless ∧ ¬room.Takes depth v) (v.renderAt room depth) := by
    intro v depth hfull
    rw [Value.renderAt_of_not_fits hfull]
    exact refusesFor_error ⟨rfl, fun ht => Bool.false_ne_true (hfull.symm.trans ht.fits)⟩
  have hleaf : ∀ {n : Nat} {v : Value}, Made n v → v.items? = none → ∀ depth, RefusesFor
      (fun fault => fault = .endless ∧ ¬room.Takes depth v) (v.renderAt room depth) := by
    intro n v h hv depth
    cases hfits : room.fits depth v with
    | false => exact hfull hfits
    | true =>
      obtain ⟨text, ht⟩ := h.leaf hv hfits
      exact ht ▸ refusesFor_ok
  induction h with
  | null => exact hleaf (Made.null (n := 0)) rfl
  | bool => exact hleaf (Made.bool (n := 0)) rfl
  | int h => exact hleaf (Made.int (n := 0) h) rfl
  | float => exact hleaf (Made.float (n := 0)) rfl
  | text => exact hleaf (Made.text (n := 0)) rfl
  | mapping names h _ => exact hleaf (.mapping names h) rfl
  | @list n items _ ih =>
    intro depth
    cases hfits : room.fits depth (.list items) with
    | false => exact hfull hfits
    | true =>
      rw [Value.renderAt_of_items rfl, if_pos hfits]
      refine ((renderAll_refuses fun v hv => ih v hv (depth + 1)).mono ?_).map
      rintro fault ⟨v, hv, rfl, hnot⟩
      refine ⟨rfl, fun ht => ?_⟩
      cases ht with
      | leaf h => cases h
      | list h _ hall =>
        obtain rfl := Option.some.inj h
        exact hnot (hall v hv)

end MailMerge.Json
