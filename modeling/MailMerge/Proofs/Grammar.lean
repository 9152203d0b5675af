import MailMerge.Proofs.Rescanned

/-!
# The grammar of tag constructs

A text is a construct if it is one as written (`Construct.written`) with parts that can be read back
(`Construct.Readable`). Scanning finds every stretch of a text that is a construct, and nothing else
(`Construct.scan_grammar`): two constructs never overlap, as the second opening bracket of the one
would have to be the first of the other, and after it a closing bracket comes first.

Taking a text apart asks for less. It looks at the number of brackets only, not at which way they
point, and at the last character of the name only. What it accepts beyond the grammar is said by
`Construct.recognisers_agree`.
-/

namespace MailMerge

namespace Construct

/-! ## Between the brackets -/

theorem literal_append {cs ds : List Char} : Literal (cs ++ ds) ↔ Literal cs ∧ Literal ds :=
  List.forall_mem_append

theorem isLiteral_eq_false {b : Char} : isLiteral b = false ↔ isBracket b = true := by
  simp [isLiteral]

theorem pieces_ne_nil (cs : List Char) : pieces cs ≠ [] := by
  cases cs with
  | nil => simp [pieces]
  | cons c cs =>
    rw [pieces]
    split
    · simp
    · split <;> simp

/-- A literal character goes to the front of the first piece. -/
theorem pieces_cons_of_literal {c : Char} {cs piece : List Char} {rest : List (List Char)}
    (hc : isLiteral c = true) :
    pieces (c :: cs) = piece :: rest ↔ ∃ p, piece = c :: p ∧ pieces cs = p :: rest := by
  rw [pieces, if_neg (by simpa [isLiteral] using hc)]
  split
  · next h => exact absurd h (pieces_ne_nil cs)
  · next p ps h =>
    rw [h]
    constructor
    · intro he
      obtain ⟨rfl, rfl⟩ := List.cons.inj he
      exact ⟨p, rfl, rfl⟩
    · rintro ⟨q, rfl, he⟩
      obtain ⟨rfl, rfl⟩ := List.cons.inj he
      rfl

/-- The first piece goes up to the first bracket. -/
theorem pieces_eq_cons {cs piece : List Char} {rest : List (List Char)} :
    pieces cs = piece :: rest ↔ Literal piece ∧ (cs = piece ∧ rest = [] ∨
      ∃ b more, isBracket b = true ∧ cs = piece ++ b :: more ∧ pieces more = rest) := by
  induction cs generalizing piece with
  | nil =>
    constructor
    · intro h
      obtain ⟨rfl, rfl⟩ := List.cons.inj h
      simp
    · rintro ⟨-, ⟨rfl, rfl⟩ | ⟨b, more, -, h, -⟩⟩
      · rfl
      · simp at h
  | cons c cs ih =>
    by_cases hc : isBracket c = true
    · rw [pieces, if_pos hc]
      constructor
      · intro h
        obtain ⟨rfl, rfl⟩ := List.cons.inj h
        exact ⟨literal_nil, .inr ⟨c, cs, hc, rfl, rfl⟩⟩
      · rintro ⟨hl, ⟨rfl, -⟩ | ⟨b, more, hb, h, rfl⟩⟩
        · exact absurd hc (by simpa [isLiteral] using (literal_cons.1 hl).1)
        · cases piece with
          | nil => rw [(List.cons.inj h).2]
          | cons x piece =>
            obtain ⟨rfl, -⟩ := List.cons.inj h
            exact absurd hc (by simpa [isLiteral] using (literal_cons.1 hl).1)
    · have hl : isLiteral c = true := by simpa [isLiteral] using hc
      rw [pieces_cons_of_literal hl]
      constructor
      · rintro ⟨p, rfl, h⟩
        obtain ⟨hp, ⟨rfl, rfl⟩ | ⟨b, more, hb, rfl, hm⟩⟩ := ih.1 h
        · exact ⟨literal_cons.2 ⟨hl, hp⟩, .inl ⟨rfl, rfl⟩⟩
        · exact ⟨literal_cons.2 ⟨hl, hp⟩, .inr ⟨b, more, hb, rfl, hm⟩⟩
      · rintro ⟨hp, ⟨rfl, rfl⟩ | ⟨b, more, hb, h, hm⟩⟩
        · exact ⟨cs, rfl, ih.2 ⟨(literal_cons.1 hp).2, .inl ⟨rfl, rfl⟩⟩⟩
        · cases piece with
          | nil =>
            obtain ⟨rfl, -⟩ := List.cons.inj h
            exact absurd hb hc
          | cons x piece =>
            obtain ⟨rfl, rfl⟩ := List.cons.inj h
            exact ⟨piece, rfl, ih.2 ⟨(literal_cons.1 hp).2, .inr ⟨b, more, hb, rfl, hm⟩⟩⟩

theorem pieces_eq_singleton {cs piece : List Char} :
    pieces cs = [piece] ↔ Literal piece ∧ cs = piece := by
  simp [pieces_eq_cons, pieces_ne_nil]

theorem pieces_eq_three {cs lead spec tail : List Char} : pieces cs = [lead, spec, tail] ↔
    (Literal lead ∧ Literal spec ∧ Literal tail) ∧ ∃ b b', isBracket b = true ∧
      isBracket b' = true ∧ cs = lead ++ b :: (spec ++ b' :: tail) := by
  constructor
  · intro h
    obtain ⟨hlead, ⟨-, h⟩ | ⟨b, behind, hb, rfl, hbehind⟩⟩ := pieces_eq_cons.1 h
    · cases h
    obtain ⟨hspec, ⟨-, h⟩ | ⟨b', last, hb', rfl, hlast⟩⟩ := pieces_eq_cons.1 hbehind
    · cases h
    obtain ⟨htail, rfl⟩ := pieces_eq_singleton.1 hlast
    exact ⟨⟨hlead, hspec, htail⟩, b, b', hb, hb', rfl⟩
  · rintro ⟨⟨hlead, hspec, htail⟩, b, b', hb, hb', rfl⟩
    exact pieces_eq_cons.2 ⟨hlead, .inr ⟨b, _, hb, rfl, pieces_eq_cons.2
      ⟨hspec, .inr ⟨b', _, hb', rfl, pieces_eq_singleton.2 ⟨htail, rfl⟩⟩⟩⟩⟩

/-! ## Taking a text apart -/

/-- The parts as written with the given inner brackets. -/
def between (c : Construct) (b b' : Char) : List Char :=
  '<' :: c.lead ++ b :: c.spec ++ b' :: c.tail ++ ['>']

/-- Whether parts come out of a text that is taken apart. A question mark at the end of the name is
the mark, any other belongs to the name. -/
structure Parted (c : Construct) : Prop where
  lead : Literal c.lead
  name : Literal c.name
  nonempty : c.name ≠ []
  unmarked : c.optional = false → c.name.getLast? ≠ some '?'
  tail : Literal c.tail

theorem readable_iff {c : Construct} : c.Readable ↔ c.Parted ∧ '?' ∉ c.name := by
  have char (x : Char) : isNameChar x = true ↔ isLiteral x = true ∧ x ≠ '?' := by
    simp [isNameChar]
  constructor
  · rintro ⟨hlead, hname, hne, htail⟩
    have hmark : '?' ∉ c.name := fun hm => ((char _).1 (hname _ hm)).2 rfl
    exact ⟨⟨hlead, fun x hx => ((char x).1 (hname x hx)).1, hne,
      fun _ h => hmark (List.mem_of_getLast? h), htail⟩, hmark⟩
  · rintro ⟨h, hmark⟩
    exact ⟨h.lead, fun x hx => (char x).2 ⟨h.name x hx, fun e => hmark (e ▸ hx)⟩, h.nonempty, h.tail⟩

theorem literal_spec {c : Construct} : Literal c.spec ↔ Literal c.name := by
  have : isLiteral '?' = true := by decide
  rw [spec]
  split <;> simp [literal_append, this]

theorem ofPieces?_eq_some {lead spec tail : List Char} {c : Construct} :
    ofPieces? [lead, spec, tail] = some c ↔ c.lead = lead ∧ c.spec = spec ∧ c.tail = tail ∧
      c.name ≠ [] ∧ (c.optional = false → c.name.getLast? ≠ some '?') := by
  by_cases hm : spec.getLast? = some '?'
  · have hs : spec.dropLast ++ ['?'] = spec := by
      obtain ⟨front, rfl⟩ := List.getLast?_eq_some_iff.1 hm
      simp
    constructor
    · intro h
      simp only [ofPieces?, hm, if_true, decide_true] at h
      split_ifs at h with hne
      obtain rfl := Option.some.inj h
      exact ⟨rfl, by simpa [Construct.spec] using hs, rfl, hne, by simp⟩
    · rintro ⟨rfl, hspec, rfl, hne, hopt⟩
      have ho : c.optional = true := by
        by_contra ho
        have ho : c.optional = false := by simpa using ho
        exact hopt ho (by simpa [Construct.spec, ho, ← hspec] using hm)
      have hname : spec.dropLast = c.name := by simp [← hspec, Construct.spec, ho]
      simp [ofPieces?, hm, hname, hne, ← ho]
  · constructor
    · intro h
      simp only [ofPieces?, hm, if_false, decide_false] at h
      split_ifs at h with hne
      obtain rfl := Option.some.inj h
      exact ⟨rfl, by simp [Construct.spec], rfl, hne, fun _ => hm⟩
    · rintro ⟨rfl, hspec, rfl, hne, -⟩
      have ho : c.optional = false := by
        by_contra ho
        have ho : c.optional = true := by simpa using ho
        exact hm (by simp [← hspec, Construct.spec, ho])
      have hname : spec = c.name := by simp [← hspec, Construct.spec, ho]
      subst hname
      simp [ofPieces?, hm, hne, ← ho]

theorem decompose?_eq_some {cs : List Char} {c : Construct} : decompose? cs = some c ↔
    c.Parted ∧ ∃ b b', isBracket b = true ∧ isBracket b' = true ∧ cs = c.between b b' := by
  have outer : decompose? cs = some c ↔
      ∃ inner, cs = '<' :: (inner ++ ['>']) ∧ ofPieces? (pieces inner) = some c := by
    unfold decompose?
    split
    · next rest =>
      constructor
      · intro h
        split_ifs at h with hlast
        obtain ⟨inner, rfl⟩ := List.getLast?_eq_some_iff.1 hlast
        exact ⟨inner, rfl, by simpa using h⟩
      · rintro ⟨inner, he, h⟩
        obtain rfl := (List.cons.inj he).2
        simpa using h
    · next hcs =>
      constructor
      · rintro ⟨⟩
      · rintro ⟨inner, rfl, -⟩
        exact absurd rfl (hcs _)
  rw [outer]
  constructor
  · rintro ⟨inner, rfl, h⟩
    have h3 : ∃ lead spec tail, pieces inner = [lead, spec, tail] := by
      unfold ofPieces? at h
      split at h
      · next lead spec tail hp => exact ⟨lead, spec, tail, hp⟩
      · cases h
    obtain ⟨lead, spec, tail, hp⟩ := h3
    obtain ⟨⟨hlead, hspec, htail⟩, b, b', hb, hb', rfl⟩ := pieces_eq_three.1 hp
    rw [hp] at h
    obtain ⟨rfl, rfl, rfl, hne, hmark⟩ := ofPieces?_eq_some.1 h
    exact ⟨⟨hlead, literal_spec.1 hspec, hne, hmark, htail⟩, b, b', hb, hb', by simp [between]⟩
  · rintro ⟨h, b, b', hb, hb', rfl⟩
    refine ⟨c.lead ++ b :: (c.spec ++ b' :: c.tail), by simp [between], ?_⟩
    rw [pieces_eq_three.2 ⟨⟨h.lead, literal_spec.2 h.name, h.tail⟩, b, b', hb, hb', rfl⟩]
    exact ofPieces?_eq_some.2 ⟨rfl, rfl, rfl, h.nonempty, h.unmarked⟩

theorem decompose?_written {c : Construct} (hc : c.Readable) : decompose? c.written = some c :=
  decompose?_eq_some.2 ⟨(readable_iff.1 hc).1, '<', '>', by decide, by decide, rfl⟩

theorem split?_eq_some {cs text rest : List Char} : split? cs = some (text, rest) ↔
    ∃ c : Construct, c.Readable ∧ text = c.written ∧ cs = c.written ++ rest := by
  constructor
  · intro h
    have happend := append_of_split? h
    simp only [split?, Option.map_eq_some_iff, Prod.mk.injEq] at h
    obtain ⟨_, hafter, -, rfl⟩ := h
    obtain ⟨c, hc, hcs⟩ := exists_written hafter
    exact ⟨c, hc, List.append_cancel_right (happend.trans hcs), hcs⟩
  · rintro ⟨c, hc, rfl, rfl⟩
    simp [split?, after?_written hc]

/-- What the search for a construct takes as a whole is what the grammar says. Taking a text apart
gives its parts then; beyond that it accepts inner brackets of either direction, and a name with
question marks in it. -/
theorem recognisers_agree (cs : List Char) :
    (split? cs = some (cs, []) ↔ ∃ c : Construct, c.Readable ∧ cs = c.written) ∧
      (∀ c : Construct, decompose? cs = some c ↔ c.Parted ∧
        ∃ b b', isBracket b = true ∧ isBracket b' = true ∧ cs = c.between b b') ∧
      ∀ c : Construct, c.Readable ∧ cs = c.written ↔
        decompose? cs = some c ∧ '?' ∉ c.name ∧ cs = c.between '<' '>' := by
  refine ⟨?_, fun c => decompose?_eq_some, fun c => ?_⟩
  · simp [split?_eq_some]
  · constructor
    · rintro ⟨hc, rfl⟩
      exact ⟨decompose?_written hc, (readable_iff.1 hc).2, rfl⟩
    · rintro ⟨h, hmark, rfl⟩
      exact ⟨readable_iff.2 ⟨(decompose?_eq_some.1 h).1, hmark⟩, rfl⟩

/-- A name with a question mark in it and brackets in another order come apart all the same. -/
theorem accepted_beyond_grammar :
    (decompose? "<<a??>>".toList = some ⟨[], "a?".toList, true, []⟩ ∧
        split? "<<a??>>".toList = none) ∧
      (decompose? "<>a<>".toList = some ⟨[], "a".toList, false, []⟩ ∧
        split? "<>a<>".toList = none) ∧
      ¬ ∀ cs : List Char, (∃ c, decompose? cs = some c) ↔ split? cs = some (cs, []) := by
  refine ⟨by decide, by decide, fun h => ?_⟩
  have hmark := (h "<<a??>>".toList).1 ⟨⟨[], "a?".toList, true, []⟩, by decide⟩
  exact absurd hmark (by decide)

/-! ## Constructs do not overlap -/

/-- Where a bracket stands in a text that goes on with a bracket behind literal text. -/
theorem bracket_cases {b b' : Char} {lit front rest back : List Char} (hl : Literal lit)
    (hb : isBracket b' = true) (h : lit ++ b :: rest = front ++ b' :: back) :
    (front = lit ∧ b = b' ∧ rest = back) ∨
      ∃ more, front = lit ++ b :: more ∧ rest = more ++ b' :: back := by
  rcases List.append_eq_append_iff.1 h with ⟨more, rfl, he⟩ | ⟨more, rfl, he⟩
  · cases more with
    | nil =>
      obtain ⟨rfl, rfl⟩ := List.cons.inj he
      exact .inl ⟨by simp, rfl, rfl⟩
    | cons x more =>
      obtain ⟨rfl, rfl⟩ := List.cons.inj he
      exact .inr ⟨more, rfl, rfl⟩
  · cases more with
    | nil =>
      obtain ⟨rfl, rfl⟩ := List.cons.inj he
      exact .inl ⟨by simp, rfl, rfl⟩
    | cons x more =>
      obtain ⟨rfl, -⟩ := List.cons.inj he
      have := (literal_cons.1 (literal_append.1 hl).2).1
      rw [isLiteral_eq_false.2 hb] at this
      cases this

/-- A construct that begins within another begins behind it. -/
theorem length_le_of_append_eq {c d : Construct} (hc : c.Readable) (hd : d.Readable)
    {front rest back : List Char} (hne : front ≠ [])
    (h : c.written ++ rest = front ++ (d.written ++ back)) :
    c.written.length ≤ front.length := by
  have hspec : Literal c.spec := literal_spec.2 (readable_iff.1 hc).1.name
  have opening : isBracket '<' = true := by decide
  obtain ⟨x, front, rfl⟩ := List.exists_cons_of_ne_nil hne
  have h : c.lead ++ '<' :: (c.spec ++ '>' :: (c.tail ++ '>' :: rest)) =
      front ++ '<' :: (d.lead ++ '<' :: (d.spec ++ '>' :: (d.tail ++ '>' :: back))) := by
    simpa [written] using (List.cons.inj h).2
  rcases bracket_cases hc.lead opening h with ⟨-, -, hspecs⟩ | ⟨mid, rfl, hmid⟩
  · -- The one would have its inner bracket where the other begins, and close it too early.
    rcases bracket_cases hspec opening hspecs with ⟨-, he, -⟩ | ⟨more, hlead, -⟩
    · exact absurd he (by decide)
    · have hl := hd.lead
      rw [hlead, literal_append, literal_cons] at hl
      exact absurd hl.2.1 (by decide)
  rcases bracket_cases hspec opening hmid with ⟨-, he, -⟩ | ⟨late, rfl, hlate⟩
  · exact absurd he (by decide)
  rcases bracket_cases hc.tail opening hlate with ⟨-, he, -⟩ | ⟨more, rfl, -⟩
  · exact absurd he (by decide)
  · simp only [written, List.length_cons, List.length_append, List.length_nil]
    omega

theorem eq_of_written_append {c d : Construct} (hc : c.Readable) (hd : d.Readable)
    {rest back : List Char} (h : c.written ++ rest = d.written ++ back) : c = d := by
  have hrest : rest = back :=
    Option.some.inj ((after?_written hc rest).symm.trans (h ▸ after?_written hd back))
  have hw : c.written = d.written := List.append_cancel_right (hrest ▸ h)
  exact Option.some.inj ((decompose?_written hc).symm.trans (hw ▸ decompose?_written hd))

/-! ## Scanning -/

/-- A construct in a text is found, whatever stands before it. -/
theorem mem_scanFrom {d : Construct} (hd : d.Readable) (back : List Char) (start : Nat)
    (cs : List Char) {front : List Char} (h : cs = front ++ (d.written ++ back)) :
    ⟨start + front.length, d.written, d⟩ ∈ scanFrom start cs := by
  fun_induction scanFrom start cs generalizing front with
  | case1 start cs text rest hs hlt parts hparts ih =>
    obtain ⟨c, hc, rfl, hcs⟩ := split?_eq_some.1 hs
    have he : c.written ++ rest = front ++ (d.written ++ back) := hcs.symm.trans h
    by_cases hne : front = []
    · subst hne
      obtain rfl := eq_of_written_append hc hd he
      obtain rfl := Option.some.inj ((decompose?_written hc).symm.trans hparts)
      exact List.mem_cons_self
    · have hle := length_le_of_append_eq hc hd hne he
      obtain ⟨more, rfl⟩ := List.prefix_of_prefix_length_le
        (he ▸ List.prefix_append c.written rest) (List.prefix_append front _) hle
      have := ih (List.append_cancel_left (he.trans (List.append_assoc _ _ _)))
      rw [Nat.add_assoc, ← List.length_append] at this
      exact List.mem_cons_of_mem _ this
  | case2 start cs text rest hs hlt hparts ih =>
    obtain ⟨c, hc, rfl, -⟩ := split?_eq_some.1 hs
    cases hparts.symm.trans (decompose?_written hc)
  | case3 start hs => simp [written] at h
  | case4 start x rest hs ih =>
    cases front with
    | nil => cases hs.symm.trans (split?_eq_some.2 ⟨d, hd, rfl, h⟩)
    | cons y front =>
      have := ih (List.cons.inj h).2
      rwa [List.length_cons, Nat.add_comm front.length, ← Nat.add_assoc]

/-- What is found is written with its parts. -/
theorem written_of_mem_scanFrom (start : Nat) (cs : List Char) :
    ∀ f ∈ scanFrom start cs, f.parts.Readable ∧ f.text = f.parts.written := by
  fun_induction scanFrom start cs with
  | case1 start cs text rest h hlt parts hparts ih =>
    refine List.forall_mem_cons.2 ⟨?_, ih⟩
    obtain ⟨c, hc, rfl, -⟩ := split?_eq_some.1 h
    obtain rfl := Option.some.inj ((decompose?_written hc).symm.trans hparts)
    exact ⟨hc, rfl⟩
  | case2 _ _ _ _ _ _ _ ih => exact ih
  | case3 => simp
  | case4 _ _ _ _ ih => exact ih

/-- Whether the characters from one place to another, both included, are a construct with the given
parts. -/
structure StandsAt (c : Construct) (i j : Nat) (cs : List Char) : Prop where
  le : i ≤ j
  lt : j < cs.length
  readable : c.Readable
  slice : (cs.drop i).take (j + 1 - i) = c.written

theorem standsAt_of_mem_scan {cs : List Char} {f : Found} (hf : f ∈ scan cs) :
    f.parts.StandsAt f.start f.last cs := by
  obtain ⟨hs, hne, -⟩ := scan_spec hf
  obtain ⟨hr, hw⟩ := written_of_mem_scanFrom 0 cs f hf
  have hpos := List.length_pos_of_ne_nil hne
  have hle := hs.stop_le
  rw [Found.stop] at hle
  refine ⟨by rw [Found.last]; omega, by rw [Found.last]; omega, hr, ?_⟩
  rw [show f.last + 1 - f.start = f.text.length by rw [Found.last]; omega, hs.take, hw]

theorem StandsAt.mem_scan {c : Construct} {i j : Nat} {cs : List Char} (h : c.StandsAt i j cs) :
    ⟨i, c.written, c⟩ ∈ scan cs ∧ Found.last ⟨i, c.written, c⟩ = j := by
  have hle := h.le
  have hlt := h.lt
  have hlen : c.written.length = j + 1 - i := by
    rw [← h.slice, List.length_take, List.length_drop]
    omega
  constructor
  · have hcs : cs = cs.take i ++ (c.written ++ (cs.drop i).drop (j + 1 - i)) := by
      rw [← h.slice, List.take_append_drop, List.take_append_drop]
    have hi : (cs.take i).length = i := by
      rw [List.length_take]
      omega
    have := mem_scanFrom h.readable _ 0 cs hcs
    rwa [hi, Nat.zero_add] at this
  · change i + c.written.length - 1 = j
    omega

theorem pairwise_last_scan (cs : List Char) :
    (scan cs).Pairwise fun f g => f.last < g.start := by
  refine (pairwise_scan cs).imp_of_mem fun {f g} hf _ h => ?_
  have := (standsAt_of_mem_scan hf).le
  have := List.length_pos_of_ne_nil (scan_spec hf).2.1
  rw [Found.stop] at h
  rw [Found.last]
  omega

theorem eq_of_start_eq {cs : List Char} {f g : Found} (hf : f ∈ scan cs) (hg : g ∈ scan cs)
    (h : f.start = g.start) : f = g := by
  have hnodup : ((scan cs).map Found.start).Nodup := by
    refine List.pairwise_map.2 ((pairwise_last_scan cs).imp_of_mem fun {f g} hf _ hlt => ?_)
    have := (standsAt_of_mem_scan hf).le
    omega
  exact List.inj_on_of_nodup_map hnodup hf hg h

/-- Scanning finds the stretches of a text that are constructs, each of them once and from left to
right, with their texts and parts; what begins as a construct is always taken apart. -/
theorem scan_grammar (cs : List Char) :
    ((scan cs).Pairwise fun f g => f.last < g.start) ∧
      (∀ i j, (∃ c : Construct, c.StandsAt i j cs) ↔
        ∃! f, f ∈ scan cs ∧ f.start = i ∧ f.last = j) ∧
      (∀ f ∈ scan cs, f.parts.StandsAt f.start f.last cs ∧
        f.text = (cs.drop f.start).take (f.last + 1 - f.start) ∧ f.text = f.parts.written) ∧
      ∀ i text rest, split? (cs.drop i) = some (text, rest) →
        ∃ c : Construct, c.Readable ∧ text = c.written ∧ decompose? text = some c := by
  refine ⟨pairwise_last_scan cs, fun i j => ⟨?_, ?_⟩, fun f hf => ?_, fun i text rest h => ?_⟩
  · rintro ⟨c, hc⟩
    obtain ⟨hf, hlast⟩ := hc.mem_scan
    exact ⟨_, ⟨hf, rfl, hlast⟩, fun g ⟨hg, hstart, _⟩ => eq_of_start_eq hg hf hstart⟩
  · rintro ⟨f, ⟨hf, rfl, rfl⟩, -⟩
    exact ⟨f.parts, standsAt_of_mem_scan hf⟩
  · have hs := standsAt_of_mem_scan hf
    have hw := (written_of_mem_scanFrom 0 cs f hf).2
    exact ⟨hs, hw.trans hs.slice.symm, hw⟩
  · obtain ⟨c, hc, rfl, -⟩ := split?_eq_some.1 h
    exact ⟨c, hc, rfl, decompose?_written hc⟩

end Construct

end MailMerge
