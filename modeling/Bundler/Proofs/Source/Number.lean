import Bundler.Proofs.Source.Parts

/-!
# Numbers before another text

A number ends where it ended before when the text after it is exchanged for one that is `Near`: the same
character comes next, and where this may start an exponent, so does the character that would make it one.
-/

namespace Bundler.Source

variable {chars run left other : List Char}

theorem digitRun_ends {isDigit : Char → Bool} (h : digitRun isDigit chars = some (run, left)) {c : Char}
    (hc : left.head? = some c) : isDigit c = false ∧ c ≠ '_' := by
  induction chars using digitRun.induct isDigit generalizing run with
  | case1 =>
    rw [digitRun] at h
    cases h
    cases hc
  | case2 d rest hdigit ih =>
    rw [digitRun, if_pos hdigit] at h
    obtain ⟨⟨more, others⟩, hmore, heq⟩ := Option.map_eq_some_iff.1 h
    cases heq
    exact ih hmore
  | case3 d rest hdigit =>
    rw [digitRun, if_neg hdigit] at h
    cases h
  | case4 d rest hshape hdigit ih =>
    rw [digitRun.eq_3 _ _ _ hshape, if_pos hdigit] at h
    obtain ⟨⟨more, others⟩, hmore, heq⟩ := Option.map_eq_some_iff.1 h
    cases heq
    exact ih hmore
  | case5 rest hshape hdigit =>
    rw [digitRun.eq_3 _ _ _ hshape, if_neg hdigit, if_pos rfl] at h
    cases h
  | case6 d rest hshape hdigit hunderscore =>
    rw [digitRun.eq_3 _ _ _ hshape, if_neg hdigit, if_neg hunderscore] at h
    cases h
    cases hc
    exact ⟨by simpa using hdigit, hunderscore⟩

theorem digitRun_nil {isDigit : Char → Bool}
    (h : ∀ c, other.head? = some c → isDigit c = false ∧ c ≠ '_') :
    digitRun isDigit other = some ([], other) := by
  cases other with
  | nil => rw [digitRun]
  | cons c rest =>
    obtain ⟨hdigit, hunderscore⟩ := h c rfl
    have hshape : ∀ (d : Char) (more : List Char), c = '_' → rest = d :: more → False :=
      fun _ _ heq _ => hunderscore heq
    rw [digitRun.eq_3 _ _ _ hshape, if_neg (by simp [hdigit]), if_neg hunderscore]

theorem digitRun_append {isDigit : Char → Bool} (hunderscore : isDigit '_' = false)
    (h : digitRun isDigit chars = some (run, left)) (hhead : other.head? = left.head?) :
    digitRun isDigit (run ++ other) = some (run, other) := by
  have hends : ∀ c, other.head? = some c → isDigit c = false ∧ c ≠ '_' :=
    fun c hc => digitRun_ends h (hhead ▸ hc)
  clear hhead
  induction chars using digitRun.induct isDigit generalizing run with
  | case1 =>
    rw [digitRun] at h
    cases h
    exact digitRun_nil hends
  | case2 d rest hdigit ih =>
    rw [digitRun, if_pos hdigit] at h
    obtain ⟨⟨more, others⟩, hmore, heq⟩ := Option.map_eq_some_iff.1 h
    cases heq
    rw [List.cons_append, List.cons_append, digitRun, if_pos hdigit, ih hmore]
    rfl
  | case3 d rest hdigit =>
    rw [digitRun, if_neg hdigit] at h
    cases h
  | case4 d rest hshape hdigit ih =>
    rw [digitRun.eq_3 _ _ _ hshape, if_pos hdigit] at h
    obtain ⟨⟨more, others⟩, hmore, heq⟩ := Option.map_eq_some_iff.1 h
    cases heq
    have hshape : ∀ (e : Char) (others : List Char), d = '_' → more ++ other = e :: others → False := by
      rintro e others rfl
      rw [hunderscore] at hdigit
      cases hdigit
    rw [List.cons_append, digitRun.eq_3 _ _ _ hshape, if_pos hdigit, ih hmore]
    rfl
  | case5 rest hshape hdigit =>
    rw [digitRun.eq_3 _ _ _ hshape, if_neg hdigit, if_pos rfl] at h
    cases h
  | case6 d rest hshape hdigit hne =>
    rw [digitRun.eq_3 _ _ _ hshape, if_neg hdigit, if_neg hne] at h
    cases h
    exact digitRun_nil hends

def isPower (c : Char) : Prop := c.isDigit = true ∨ c = '+' ∨ c = '-'

/-- The rests start alike, as far as a number before them can see. -/
structure Near (left other : List Char) : Prop where
  head : other.head? = left.head?
  power : ∀ e, other.head? = some e → e = 'e' ∨ e = 'E' →
    ∀ c, other.tail.head? = some c → isPower c → left.tail.head? = some c

theorem Near.cons (c : Char) (h : Near left other) : Near (c :: left) (c :: other) where
  head := rfl
  power := fun _ _ _ _ hnext _ => h.head ▸ hnext

theorem Near.head_append (h : Near left other) (run : List Char) :
    (run ++ other).head? = (run ++ left).head? := by
  rw [List.head?_append, List.head?_append, h.head]

theorem Near.append (run : List Char) (h : Near left other) : Near (run ++ left) (run ++ other) := by
  induction run with
  | nil => exact h
  | cons c run ih => exact ih.cons c

theorem exponent_eq_nil_iff : exponent chars = some ([], chars) ↔
    ∀ e c more, chars = e :: c :: more → e = 'e' ∨ e = 'E' → ¬isPower c := by
  constructor
  · rintro h e c more rfl he hpower
    cases more with
    | nil =>
      rw [exponent, if_pos he] at h
      rcases hpower with hdigit | hsign
      · rw [if_pos hdigit] at h
        split at h <;> cases h
      · rw [if_pos hsign] at h
        cases h
    | cons d more =>
      rw [exponent, if_pos he] at h
      split at h
      · split at h
        · obtain ⟨_, -, heq⟩ := Option.map_eq_some_iff.1 h
          cases heq
        · cases h
      next hsign =>
        rw [if_pos (hpower.resolve_right hsign)] at h
        obtain ⟨_, -, heq⟩ := Option.map_eq_some_iff.1 h
        cases heq
  · intro h
    unfold exponent
    split
    next e c d more =>
      split
      next he =>
        have hpower := h e c (d :: more) rfl he
        rw [isPower, not_or] at hpower
        rw [if_neg hpower.2, if_neg hpower.1]
      · rfl
    next e c =>
      split
      next he =>
        have hpower := h e c [] rfl he
        rw [isPower, not_or] at hpower
        rw [if_neg hpower.2, if_neg hpower.1]
      · rfl
    · rfl

theorem exponent_nil (h : exponent left = some ([], left)) (hnear : Near left other) :
    exponent other = some ([], other) := by
  rw [exponent_eq_nil_iff] at h ⊢
  rintro e c more rfl he hpower
  have hhead := hnear.head
  have htail := hnear.power e rfl he c rfl hpower
  cases left with
  | nil => cases hhead
  | cons d rest =>
    cases hhead
    obtain ⟨others, rfl⟩ := List.head?_eq_some_iff.1 htail
    exact h e c others rfl he hpower

theorem exponent_append (h : exponent chars = some (run, left)) (hnear : Near left other) :
    exponent (run ++ other) = some (run, other) := by
  have hnothing : ∀ {rest : List Char}, exponent rest = some ([], rest) →
      some ([], rest) = some (run, left) → exponent (run ++ other) = some (run, other) := by
    rintro rest hrest ⟨⟩
    exact exponent_nil hrest hnear
  unfold exponent at h
  split at h
  next e c d rest =>
    split at h
    next he =>
      split at h
      next hsign =>
        split at h
        next hdigit =>
          obtain ⟨⟨more, others⟩, hmore, heq⟩ := Option.map_eq_some_iff.1 h
          cases heq
          rw [List.cons_append, List.cons_append, List.cons_append, exponent, if_pos he, if_pos hsign,
            if_pos hdigit, digitRun_append rfl hmore hnear.head]
          rfl
        · cases h
      next hsign =>
        split at h
        next hdigit =>
          obtain ⟨⟨more, others⟩, hmore, heq⟩ := Option.map_eq_some_iff.1 h
          cases heq
          have hagain := digitRun_append rfl hmore hnear.head
          -- The digits go on, if only with the same character that ended them before.
          have hhead : (more ++ other).head? = some d := by
            rw [List.head?_append, hnear.head, ← List.head?_append, append_of_digitRun hmore]
            rfl
          obtain ⟨others, heq⟩ := List.head?_eq_some_iff.1 hhead
          rw [List.cons_append, List.cons_append, heq, exponent, if_pos he, if_neg hsign, if_pos hdigit,
            ← heq, hagain]
          rfl
        next hdigit =>
          refine hnothing ?_ h
          rw [exponent, if_pos he, if_neg hsign, if_neg hdigit]
    next he =>
      refine hnothing ?_ h
      rw [exponent, if_neg he]
  next e c =>
    split at h
    next he =>
      split at h
      · cases h
      next hsign =>
        split at h
        next hdigit =>
          cases h
          have hnone : other = [] := List.head?_eq_none_iff.1 hnear.head
          subst hnone
          rw [List.append_nil, exponent, if_pos he, if_neg hsign, if_pos hdigit]
        next hdigit =>
          refine hnothing ?_ h
          rw [exponent, if_pos he, if_neg hsign, if_neg hdigit]
    next he =>
      refine hnothing ?_ h
      rw [exponent, if_neg he]
  next hthree htwo =>
    refine hnothing ?_ h
    rw [exponent_eq_nil_iff]
    rintro e c more rfl
    cases more with
    | nil => exact absurd rfl (htwo e c)
    | cons d more => exact absurd rfl (hthree e c d more)

theorem imaginaryMark_append (hmark : imaginaryMark chars = (run, left))
    (hhead : other.head? = left.head?) : imaginaryMark (run ++ other) = (run, other) := by
  unfold imaginaryMark at hmark
  split at hmark
  next c rest =>
    split at hmark
    next hc =>
      cases hmark
      rw [List.singleton_append, imaginaryMark, if_pos hc]
    next hc =>
      cases hmark
      obtain ⟨more, rfl⟩ := List.head?_eq_some_iff.1 hhead
      rw [List.nil_append, imaginaryMark, if_neg hc]
  · cases hmark
    rw [List.head?_nil, List.head?_eq_none_iff] at hhead
    rw [hhead]
    rfl

theorem power_append {digits rest : List Char}
    (h : ((exponent rest).bind fun part =>
      some (digits ++ part.1 ++ (imaginaryMark part.2).1, (imaginaryMark part.2).2)) = some (run, left))
    (hnear : Near left other) :
    ∃ tail, run = digits ++ tail ∧ rest = tail ++ left
      ∧ ((exponent (tail ++ other)).bind fun part =>
        some (digits ++ part.1 ++ (imaginaryMark part.2).1, (imaginaryMark part.2).2))
          = some (run, other) := by
  obtain ⟨⟨power, others⟩, hpower, heq⟩ := Option.bind_eq_some_iff.1 h
  cases hmark : imaginaryMark others with
  | mk mark after =>
    rw [hmark] at heq
    cases heq
    have happend := append_imaginaryMark others
    rw [hmark] at happend
    have hrest := append_of_exponent hpower
    rw [← happend] at hpower hrest
    have hagain := exponent_append hpower (hnear.append mark)
    refine ⟨power ++ mark, List.append_assoc _ _ _, by rw [← hrest, List.append_assoc], ?_⟩
    rw [List.append_assoc, hagain, Option.bind_some, imaginaryMark_append hmark hnear.head]

theorem fraction_append (h : fraction chars = some (run, left)) (hnear : Near left other) :
    fraction (run ++ other) = some (run, other) := by
  have happend := append_of_fraction h
  have hhead := hnear.head_append run
  rw [happend] at hhead
  unfold fraction at h ⊢
  simp only [Option.bind_eq_bind, Option.bind_some] at h ⊢
  cases chars with
  | nil =>
    rw [List.head?_nil, List.head?_eq_none_iff] at hhead
    rw [hhead]
    obtain ⟨rfl, rfl⟩ := List.append_eq_nil_iff.1 happend
    obtain ⟨-, rfl⟩ := List.append_eq_nil_iff.1 hhead
    exact h
  | cons c rest =>
    obtain ⟨more, hmore⟩ := List.head?_eq_some_iff.1 hhead
    rw [hmore]
    simp only at h ⊢
    rw [← hmore]
    split at h
    next hdigit =>
      obtain ⟨⟨digits, others⟩, hdigits, h⟩ := Option.bind_eq_some_iff.1 h
      obtain ⟨tail, rfl, rfl, hagain⟩ := power_append h hnear
      rw [if_pos hdigit, List.append_assoc, digitRun_append rfl hdigits (hnear.head_append tail)]
      exact hagain
    next hdigit =>
      obtain ⟨tail, rfl, -, hagain⟩ := power_append h hnear
      rw [if_neg hdigit]
      exact hagain

theorem decimalNumber_append (h : decimalNumber chars = some (run, left)) (hnear : Near left other) :
    decimalNumber (run ++ other) = some (run, other) := by
  unfold decimalNumber at h ⊢
  simp only [Option.bind_eq_bind] at h ⊢
  obtain ⟨⟨whole, rest⟩, hwhole, h⟩ := Option.bind_eq_some_iff.1 h
  simp only at h
  split at h
  next more =>
    obtain ⟨⟨tail, others⟩, htail, h⟩ := Option.bind_eq_some_iff.1 h
    cases h
    have hagain : digitRun Char.isDigit (whole ++ '.' :: (tail ++ other))
        = some (whole, '.' :: (tail ++ other)) := digitRun_append rfl hwhole rfl
    simp only [List.append_assoc, List.cons_append, hagain, Option.bind_some,
      fraction_append htail hnear]
    rfl
  next hpoint =>
    obtain ⟨⟨power, others⟩, hpower, h⟩ := Option.bind_eq_some_iff.1 h
    simp only at h
    split at h
    · cases h
    next hzero =>
      cases hmark : imaginaryMark others with
      | mk mark after =>
        rw [hmark] at h hzero
        cases h
        have happend := append_imaginaryMark others
        rw [hmark] at happend
        have hrest := append_of_exponent hpower
        rw [← happend] at hpower hrest
        have hhead := (hnear.append mark).head_append power
        have hagain := digitRun_append rfl hwhole (hrest ▸ hhead)
        have hdot : ∀ more, power ++ (mark ++ other) = '.' :: more → False := by
          intro more heq
          rw [heq, hrest] at hhead
          obtain ⟨others, heq⟩ := List.head?_eq_some_iff.1 hhead.symm
          exact hpoint others heq
        rw [List.append_assoc, List.append_assoc, hagain, Option.bind_some]
        split
        next more heq => exact absurd heq (hdot more)
        · rw [exponent_append hpower (hnear.append mark), Option.bind_some,
            imaginaryMark_append hmark hnear.head, if_neg hzero]
          rfl

theorem number_eq_decimalNumber (hpoint : chars.head? ≠ some '.')
    (hradix : ∀ letter rest, chars = '0' :: letter :: rest → radixDigits? letter = none) :
    number chars = decimalNumber chars := by
  unfold number
  split
  · exact absurd rfl hpoint
  next letter rest =>
    rw [hradix letter rest rfl]
  · rfl

theorem decimal_append (h : decimalNumber chars = some (run, left)) (hnear : Near left other)
    (hpoint : chars.head? ≠ some '.')
    (hradix : ∀ letter rest, chars = '0' :: letter :: rest → radixDigits? letter = none) :
    number (run ++ other) = some (run, other) := by
  have happend := append_of_decimalNumber h
  have hhead := hnear.head_append run
  rw [happend] at hhead
  rw [number_eq_decimalNumber, decimalNumber_append h hnear]
  · rwa [hhead]
  · intro letter rest heq
    rw [heq] at hhead
    have hne : run ≠ [] := by
      obtain ⟨more, rfl⟩ := List.head?_eq_some_iff.1 hhead.symm
      exact decimalNumber_ne_nil rfl h
    cases run with
    | nil => exact absurd rfl hne
    | cons c more =>
      rw [List.cons_append, List.cons.injEq] at heq
      obtain ⟨rfl, heq⟩ := heq
      have hsecond : (more ++ left).head? = some letter := by
        rw [← hnear.head_append, heq]
        rfl
      obtain ⟨others, hothers⟩ := List.head?_eq_some_iff.1 hsecond
      refine hradix letter others ?_
      rw [← happend, List.cons_append, hothers]

theorem radixDigits?_underscore {letter : Char} {isDigit : Char → Bool}
    (h : radixDigits? letter = some isDigit) : isDigit '_' = false := by
  unfold radixDigits? at h
  split at h
  · cases h
    decide
  · split at h
    · cases h
      decide
    · split at h
      · cases h
        decide
      · cases h

theorem number_append (h : number chars = some (run, left)) (hnear : Near left other) :
    number (run ++ other) = some (run, other) := by
  unfold number at h
  split at h
  · obtain ⟨⟨tail, others⟩, htail, heq⟩ := Option.map_eq_some_iff.1 h
    cases heq
    rw [List.cons_append, number, fraction_append htail hnear]
    rfl
  next letter rest =>
    split at h
    next isDigit hradix =>
      split at h
      next c more =>
        split at h
        next hc =>
          split at h
          next digits others hdigits =>
            split at h
            · cases h
            next hleft =>
              cases h
              have hhead := hnear.head_append digits
              rw [append_of_digitRun hdigits] at hhead
              obtain ⟨others, heq⟩ := List.head?_eq_some_iff.1 hhead
              have hagain := digitRun_append (radixDigits?_underscore hradix) hdigits hnear.head
              rw [heq] at hagain
              rw [List.cons_append, List.cons_append, heq, number]
              simp only [hradix, hc, if_true, hagain, hnear.head, if_neg hleft]
          · cases h
        · cases h
      · cases h
    next hradix =>
      refine decimal_append h hnear (by simp) fun d others heq => ?_
      cases heq
      exact hradix
  next hpoint hzero =>
    refine decimal_append h hnear ?_ fun letter rest heq => absurd heq (hzero letter rest)
    intro hhead
    obtain ⟨more, rfl⟩ := List.head?_eq_some_iff.1 hhead
    exact hpoint more rfl

end Bundler.Source
