import CombatAccuracy.Evaluator
import CombatAccuracy.Random.Seeded
import Mathlib.Data.Set.Card
import Mathlib.Order.Interval.Finset.Nat
/-!
# Uniform draws

A draw below a bound takes words from the stream until one is accepted. The words that stand for an
answer are consecutive, and there is the same power of two of them for every answer
(`mem_share_iff`). So an attack hits on exactly its chance of the draws and of the accepted words
(`draws_uniform`).
-/
namespace CombatAccuracy

namespace ChaCha.Stream

/-- The next words of a stream, and the stream after them. -/
def nextMany : Nat → Stream → List UInt32 × Stream
  | 0, stream => ([], stream)
  | count + 1, stream =>
    let (word, stream) := stream.next
    let (words, stream) := nextMany count stream
    (word :: words, stream)

theorem nextMany_succ (count : Nat) (stream : Stream) :
    nextMany (count + 1) stream =
      (stream.next.1 :: (nextMany count stream.next.2).1, (nextMany count stream.next.2).2) :=
  rfl

theorem period_eq : period = 2 ^ 68 := by
  decide

end ChaCha.Stream

namespace Seeded

private theorem toNat_pos {bound : UInt32} (h : bound ≠ 0) : 0 < bound.toNat :=
  Nat.pos_of_ne_zero fun h0 => h (UInt32.toNat_inj.mp h0)

theorem scaled_leadingZeros {bound : UInt32} (h : bound ≠ 0) :
    2 ^ 31 ≤ bound.toNat * 2 ^ leadingZeros bound ∧
      bound.toNat * 2 ^ leadingZeros bound < 2 ^ 32 := by
  have h0 : bound.toNat ≠ 0 := (toNat_pos h).ne'
  have hlog : bound.toNat.log2 < 32 := (Nat.log2_lt h0).mpr bound.toNat_lt
  have hlow : 2 ^ bound.toNat.log2 ≤ bound.toNat := Nat.log2_self_le h0
  have hhigh : bound.toNat < 2 ^ (bound.toNat.log2 + 1) := Nat.lt_log2_self
  rw [leadingZeros, if_neg h]
  constructor
  · calc 2 ^ 31 = 2 ^ bound.toNat.log2 * 2 ^ (31 - bound.toNat.log2) := by
          rw [← Nat.pow_add]
          congr 1
          omega
      _ ≤ bound.toNat * 2 ^ (31 - bound.toNat.log2) := Nat.mul_le_mul_right _ hlow
  · calc bound.toNat * 2 ^ (31 - bound.toNat.log2)
        < 2 ^ (bound.toNat.log2 + 1) * 2 ^ (31 - bound.toNat.log2) :=
          Nat.mul_lt_mul_of_pos_right hhigh (Nat.two_pow_pos _)
      _ = 2 ^ 32 := by
          rw [← Nat.pow_add]
          congr 1
          omega

theorem toNat_zone {bound : UInt32} (h : bound ≠ 0) :
    ((bound <<< (leadingZeros bound).toUInt32) - 1).toNat =
      bound.toNat * 2 ^ leadingZeros bound - 1 := by
  have hscaled := scaled_leadingZeros h
  have hzeros : leadingZeros bound < 32 := by
    rw [leadingZeros, if_neg h]
    omega
  have hshift : (bound <<< (leadingZeros bound).toUInt32).toNat =
      bound.toNat * 2 ^ leadingZeros bound := by
    have hamount : (leadingZeros bound).toUInt32.toNat % 32 = leadingZeros bound := by
      rw [UInt32.toNat_ofNat_of_lt' (Nat.lt_trans hzeros (by decide)), Nat.mod_eq_of_lt hzeros]
    rw [UInt32.toNat_shiftLeft, hamount, Nat.shiftLeft_eq, Nat.mod_eq_of_lt hscaled.2]
  rw [UInt32.toNat_sub_of_le, hshift]
  · rfl
  · rw [UInt32.le_iff_toNat_le, hshift]
    exact Nat.le_trans (by decide) hscaled.1

theorem accept?_eq_some_iff {bound : UInt32} (h : bound ≠ 0) (word answer : UInt32) :
    accept? bound word = some answer ↔
      word.toNat * bound.toNat / 2 ^ 32 = answer.toNat ∧
        word.toNat * bound.toNat % 2 ^ 32 < bound.toNat * 2 ^ leadingZeros bound := by
  have hproduct : word.toNat * bound.toNat < 2 ^ 32 * 2 ^ 32 :=
    Nat.mul_lt_mul'' word.toNat_lt bound.toNat_lt
  have hwide : (word.toUInt64 * bound.toUInt64).toNat = word.toNat * bound.toNat := by
    rw [UInt64.toNat_mul, UInt32.toNat_toUInt64, UInt32.toNat_toUInt64]
    exact Nat.mod_eq_of_lt hproduct
  have hupper : ((word.toUInt64 * bound.toUInt64) >>> 32).toUInt32.toNat =
      word.toNat * bound.toNat / 2 ^ 32 := by
    rw [UInt64.toNat_toUInt32, UInt64.toNat_shiftRight, hwide]
    change (word.toNat * bound.toNat) >>> 32 % 2 ^ 32 = _
    rw [Nat.shiftRight_eq_div_pow, Nat.mod_eq_of_lt (Nat.div_lt_of_lt_mul hproduct)]
  have hscaled := scaled_leadingZeros h
  have hlower : (word.toUInt64 * bound.toUInt64).toUInt32 ≤
        (bound <<< (leadingZeros bound).toUInt32) - 1 ↔
      word.toNat * bound.toNat % 2 ^ 32 < bound.toNat * 2 ^ leadingZeros bound := by
    rw [UInt32.le_iff_toNat_le, toNat_zone h, UInt64.toNat_toUInt32, hwide]
    omega
  unfold accept?
  rw [← hlower, ← hupper]
  by_cases hle : (word.toUInt64 * bound.toUInt64).toUInt32 ≤
      (bound <<< (leadingZeros bound).toUInt32) - 1
  · simp only [hle, if_true, Option.some.injEq, and_true, UInt32.toNat_inj]
  · simp only [hle, if_false, reduceCtorEq, and_false]

/-- The first word that stands for an answer. -/
def shareStart (bound answer : Nat) : Nat :=
  (answer * 2 ^ 32 + (bound - 1)) / bound

theorem shareStart_le_iff {bound : Nat} (h : 0 < bound) (answer word : Nat) :
    shareStart bound answer ≤ word ↔ answer * 2 ^ 32 ≤ word * bound := by
  rw [shareStart, Nat.div_le_iff_le_mul_add_pred h, Nat.mul_comm bound word]
  omega

theorem lt_shareStart_add_iff {bound : Nat} (h : 0 < bound) (answer word count : Nat) :
    word < shareStart bound answer + count ↔
      word * bound < answer * 2 ^ 32 + bound * count := by
  by_cases hcount : word < count
  · have hsmall : word * bound < bound * count := by
      rw [Nat.mul_comm bound count]
      exact Nat.mul_lt_mul_of_pos_right hcount h
    omega
  · obtain ⟨rest, rfl⟩ := Nat.exists_eq_add_of_le (Nat.not_lt.mp hcount)
    have hstart := shareStart_le_iff h answer rest
    rw [Nat.add_mul, Nat.mul_comm count bound]
    omega

theorem mem_share_iff {bound : UInt32} (h : bound ≠ 0) (word answer : UInt32) :
    accept? bound word = some answer ↔
      shareStart bound.toNat answer.toNat ≤ word.toNat ∧
        word.toNat < shareStart bound.toNat answer.toNat + 2 ^ leadingZeros bound := by
  have hscaled := scaled_leadingZeros h
  rw [accept?_eq_some_iff h, shareStart_le_iff (toNat_pos h), lt_shareStart_add_iff (toNat_pos h)]
  generalize word.toNat * bound.toNat = product
  omega

theorem lt_of_accept? {bound word answer : UInt32} (h : bound ≠ 0)
    (haccept : accept? bound word = some answer) : answer < bound := by
  obtain ⟨hupper, -⟩ := (accept?_eq_some_iff h word answer).mp haccept
  have hproduct : word.toNat * bound.toNat < 2 ^ 32 * bound.toNat :=
    Nat.mul_lt_mul_of_pos_right word.toNat_lt (toNat_pos h)
  rw [UInt32.lt_iff_toNat_lt, ← hupper]
  exact Nat.div_lt_of_lt_mul hproduct

theorem shareStart_add_lt {bound answer : UInt32} (h : answer < bound) {place : Nat}
    (hplace : place < 2 ^ leadingZeros bound) :
    shareStart bound.toNat answer.toNat + place < 2 ^ 32 := by
  rw [UInt32.lt_iff_toNat_lt] at h
  have hbound : bound ≠ 0 := by
    rintro rfl
    exact Nat.not_lt_zero _ h
  have hscaled := scaled_leadingZeros hbound
  have hend : shareStart bound.toNat answer.toNat + 2 ^ leadingZeros bound ≤ 2 ^ 32 := by
    apply Nat.le_of_not_lt
    intro hlt
    rw [lt_shareStart_add_iff (toNat_pos hbound)] at hlt
    have hnext : (answer.toNat + 1) * 2 ^ 32 ≤ bound.toNat * 2 ^ 32 := Nat.mul_le_mul_right _ h
    omega
  omega

/-- The words that stand for answers of one kind are as many times these answers as the bound has
leading zeros, as a power of two. -/
theorem ncard_words {bound : UInt32} (h : bound ≠ 0) (kind : UInt32 → Prop) :
    {word | ∃ answer, accept? bound word = some answer ∧ kind answer}.ncard =
      {answer | answer < bound ∧ kind answer}.ncard * 2 ^ leadingZeros bound := by
  let place (pair : UInt32 × Nat) : UInt32 :=
    .ofNat (shareStart bound.toNat pair.1.toNat + pair.2)
  let pairs : Set (UInt32 × Nat) :=
    {answer | answer < bound ∧ kind answer} ×ˢ Set.Iio (2 ^ leadingZeros bound)
  have htoNat : ∀ pair ∈ pairs,
      (place pair).toNat = shareStart bound.toNat pair.1.toNat + pair.2 := by
    rintro ⟨answer, rest⟩ ⟨⟨hanswer, -⟩, hrest⟩
    exact UInt32.toNat_ofNat_of_lt' (shareStart_add_lt hanswer hrest)
  have haccept : ∀ pair ∈ pairs, accept? bound (place pair) = some pair.1 := by
    intro pair hpair
    have hrest : pair.2 < 2 ^ leadingZeros bound := hpair.2
    rw [mem_share_iff h, htoNat pair hpair]
    omega
  have himage : {word | ∃ answer, accept? bound word = some answer ∧ kind answer} =
      place '' pairs := by
    ext word
    constructor
    · rintro ⟨answer, hword, hkind⟩
      obtain ⟨hfirst, hlast⟩ := (mem_share_iff h word answer).mp hword
      refine ⟨(answer, word.toNat - shareStart bound.toNat answer.toNat),
        ⟨⟨lt_of_accept? h hword, hkind⟩, Set.mem_Iio.mpr (by omega)⟩, ?_⟩
      apply UInt32.toNat_inj.mp
      simp only [place, Nat.add_sub_cancel' hfirst, UInt32.ofNat_toNat]
    · rintro ⟨pair, hpair, rfl⟩
      exact ⟨pair.1, haccept pair hpair, hpair.1.2⟩
  have hinjective : Set.InjOn place pairs := by
    rintro ⟨answer, rest⟩ hpair ⟨answer', rest'⟩ hpair' heq
    obtain rfl : answer = answer' := by
      have hfirst := haccept _ hpair
      rw [heq, haccept _ hpair'] at hfirst
      exact (Option.some.inj hfirst).symm
    have hrest := htoNat _ hpair
    rw [heq, htoNat _ hpair'] at hrest
    dsimp only at hrest
    simp only [Prod.mk.injEq, true_and]
    omega
  have hshare : (Set.Iio (2 ^ leadingZeros bound)).ncard = 2 ^ leadingZeros bound := by
    rw [← Finset.coe_Iio, Set.ncard_coe_finset, Nat.card_Iio]
  rw [himage, hinjective.ncard_image, Set.ncard_prod, hshare]

theorem ncard_below {count : Nat} (h : count ≤ 2 ^ 32) :
    {number : UInt32 | number.toNat < count}.ncard = count := by
  have himage : {number : UInt32 | number.toNat < count} = UInt32.ofNat '' Set.Iio count := by
    ext number
    constructor
    · intro hnumber
      exact ⟨number.toNat, hnumber, UInt32.ofNat_toNat⟩
    · rintro ⟨n, hn, rfl⟩
      have hn : n < count := hn
      change (UInt32.ofNat n).toNat < count
      rwa [UInt32.toNat_ofNat_of_lt' (Nat.lt_of_lt_of_le hn h)]
  have hinjective : Set.InjOn UInt32.ofNat (Set.Iio count) := by
    intro n hn m hm heq
    have hn : n < count := hn
    have hm : m < count := hm
    have htoNat := congrArg UInt32.toNat heq
    rwa [UInt32.toNat_ofNat_of_lt' (Nat.lt_of_lt_of_le hn h),
      UInt32.toNat_ofNat_of_lt' (Nat.lt_of_lt_of_le hm h)] at htoNat
  rw [himage, hinjective.ncard_image, ← Finset.coe_Iio, Set.ncard_coe_finset, Nat.card_Iio]

section Search
variable {bound answer : UInt32} {words : Nat} {stream : ChaCha.Stream}

theorem firstAccepted_of_some (h : accept? bound stream.next.1 = some answer) :
    firstAccepted bound (words + 1) stream = (answer, stream.next.2) := by
  simp only [firstAccepted, h]

theorem firstAccepted_of_none (h : accept? bound stream.next.1 = none) :
    firstAccepted bound (words + 1) stream = firstAccepted bound words stream.next.2 := by
  simp only [firstAccepted, h]

/-- The search passes over rejected words and ends with the first accepted one. -/
theorem firstAccepted_eq {word : UInt32} {rest : ChaCha.Stream}
    (haccept : accept? bound word = some answer) (rejected : List UInt32)
    (hrejected : ∀ other ∈ rejected, accept? bound other = none)
    (hstream : stream.nextMany (rejected.length + 1) = (rejected ++ [word], rest))
    (hwords : rejected.length < words) :
    firstAccepted bound words stream = (answer, rest) := by
  induction rejected generalizing stream words with
  | nil =>
    cases words with
    | zero => exact absurd hwords (Nat.not_lt_zero _)
    | succ words =>
      rw [ChaCha.Stream.nextMany_succ] at hstream
      obtain ⟨hfound, hrest⟩ := Prod.mk.inj hstream
      rw [← (List.cons.inj hfound).1] at haccept
      rw [firstAccepted_of_some haccept, ← hrest]
      rfl
  | cons other rejected ih =>
    cases words with
    | zero => exact absurd hwords (Nat.not_lt_zero _)
    | succ words =>
      rw [ChaCha.Stream.nextMany_succ] at hstream
      obtain ⟨hfound, hrest⟩ := Prod.mk.inj hstream
      obtain ⟨hother, hothers⟩ := List.cons.inj hfound
      have hnone : accept? bound stream.next.1 = none := by
        rw [hother]
        exact hrejected other List.mem_cons_self
      rw [firstAccepted_of_none hnone]
      apply ih
      · intro other hmem
        exact hrejected other (List.mem_cons_of_mem _ hmem)
      · exact Prod.ext hothers hrest
      · exact Nat.lt_of_succ_lt_succ hwords

end Search

theorem firstAccepted_lt {bound : UInt32} (h : bound ≠ 0) (words : Nat) (stream : ChaCha.Stream) :
    (firstAccepted bound words stream).1 < bound := by
  induction words generalizing stream with
  | zero => exact UInt32.pos_iff_ne_zero.mpr h
  | succ words ih =>
    cases haccept : accept? bound stream.next.1 with
    | none =>
      rw [firstAccepted_of_none haccept]
      exact ih stream.next.2
    | some answer =>
      rw [firstAccepted_of_some haccept]
      exact lt_of_accept? h haccept

theorem draw_of_ne_zero {bound : UInt32} (h : bound ≠ 0) (source : Seeded) :
    RandomSource.draw bound source =
      ((firstAccepted bound ChaCha.Stream.period source.stream).1,
        (⟨(firstAccepted bound ChaCha.Stream.period source.stream).2⟩ : Seeded)) := by
  change (if bound = 0 then (0, source) else
    ((firstAccepted bound ChaCha.Stream.period source.stream).1,
      (⟨(firstAccepted bound ChaCha.Stream.period source.stream).2⟩ : Seeded))) = _
  rw [if_neg h]

theorem draw_eq {bound word answer : UInt32} {source : Seeded} {rest : ChaCha.Stream}
    (h : bound ≠ 0) (haccept : accept? bound word = some answer) (rejected : List UInt32)
    (hrejected : ∀ other ∈ rejected, accept? bound other = none)
    (hstream : source.stream.nextMany (rejected.length + 1) = (rejected ++ [word], rest))
    (hperiod : rejected.length < ChaCha.Stream.period) :
    RandomSource.draw bound source = (answer, (⟨rest⟩ : Seeded)) := by
  rw [draw_of_ne_zero h, firstAccepted_eq haccept rejected hrejected hstream hperiod]

theorem decide_value_of_accept? {source : Seeded} {word answer : UInt32} (chance : HitChance)
    (hword : source.stream.next.1 = word) (haccept : accept? 10000 word = some answer) :
    (chance.decide source).value = (chance.beats answer, ⟨source.stream.next.2⟩) := by
  have hperiod : 0 < ChaCha.Stream.period := by
    rw [ChaCha.Stream.period_eq]
    decide
  have hstream : source.stream.nextMany 1 = ([word], source.stream.next.2) := by
    rw [ChaCha.Stream.nextMany_succ, hword]
    rfl
  have hdraw : RandomSource.draw 10000 source = (answer, (⟨source.stream.next.2⟩ : Seeded)) :=
    draw_eq (by decide) haccept [] (fun _ hmem => nomatch hmem) hstream hperiod
  rw [HitChance.decide_value, hdraw]

theorem ncard_accepted {bound : UInt32} (h : bound ≠ 0) :
    {word | (accept? bound word).isSome}.ncard = bound.toNat * 2 ^ leadingZeros bound := by
  have hwords : {word | (accept? bound word).isSome} =
      {word | ∃ answer, accept? bound word = some answer ∧ True} := by
    ext word
    simp [Option.isSome_iff_exists]
  have hanswers : {answer | answer < bound ∧ True} =
      {answer : UInt32 | answer.toNat < bound.toNat} := by
    ext answer
    simp [UInt32.lt_iff_toNat_lt]
  rw [hwords, ncard_words h, hanswers, ncard_below (Nat.le_of_lt bound.toNat_lt)]

theorem ncard_answer {bound answer : UInt32} (h : answer < bound) :
    {word | accept? bound word = some answer}.ncard = 2 ^ leadingZeros bound := by
  have hbound : bound ≠ 0 := by
    rintro rfl
    exact UInt32.not_lt_zero h
  have hwords : {word | accept? bound word = some answer} =
      {word | ∃ other, accept? bound word = some other ∧ other = answer} := by
    ext word
    simp
  have hanswers : {other | other < bound ∧ other = answer} = {answer} := by
    ext other
    simp only [Set.mem_ofPred_eq, Set.mem_singleton_iff, and_iff_right_iff_imp]
    rintro rfl
    exact h
  rw [hwords, ncard_words hbound, hanswers, Set.ncard_singleton, Nat.one_mul]

theorem ncard_beaten (chance : HitChance) :
    {draw : UInt32 | draw < 10000 ∧ chance.beats draw}.ncard = chance.points := by
  have hpoints := chance.points_le
  have hbeaten : {draw : UInt32 | draw < 10000 ∧ chance.beats draw} =
      {draw : UInt32 | draw.toNat < chance.points} := by
    ext draw
    simp only [Set.mem_ofPred_eq, UInt32.lt_iff_toNat_lt, HitChance.beats, decide_eq_true_eq,
      and_iff_right_iff_imp]
    intro hdraw
    exact Nat.lt_of_lt_of_le hdraw hpoints
  rw [hbeaten, ncard_below (by omega)]

theorem leadingZeros_scale : leadingZeros 10000 = 18 := by
  decide

theorem ncard_hitting (chance : HitChance) :
    {word | (accept? 10000 word).isSome ∧ ∀ source : Seeded, source.stream.next.1 = word →
      (chance.decide source).value.1 = true}.ncard = chance.points * 2 ^ 18 := by
  have hwords : {word | (accept? 10000 word).isSome ∧ ∀ source : Seeded,
        source.stream.next.1 = word → (chance.decide source).value.1 = true} =
      {word | ∃ answer, accept? 10000 word = some answer ∧ chance.beats answer} := by
    ext word
    constructor
    · rintro ⟨hsome, hhit⟩
      obtain ⟨answer, haccept⟩ := Option.isSome_iff_exists.mp hsome
      let source : Seeded := ⟨{ key := expandSeed 0, pending := [word] }⟩
      have hnext : source.stream.next.1 = word := rfl
      have hdecision := hhit source hnext
      rw [decide_value_of_accept? chance hnext haccept] at hdecision
      exact ⟨answer, haccept, hdecision⟩
    · rintro ⟨answer, haccept, hbeats⟩
      refine ⟨Option.isSome_iff_exists.mpr ⟨answer, haccept⟩, ?_⟩
      intro source hnext
      rw [decide_value_of_accept? chance hnext haccept]
      exact hbeats
  rw [hwords, ncard_words (by decide), ncard_beaten, leadingZeros_scale]

/-- Draws are uniform. Below a bound every answer is had from equally many words, and these from at
least half of all words; a draw answers for the first word accepted, and the source goes on after
it. So of the draws, and of the words accepted for one, each chance hits with its own share. -/
theorem draws_uniform :
    (∀ bound : UInt32, bound ≠ 0 →
      (2 ^ 31 ≤ bound.toNat * 2 ^ leadingZeros bound ∧
        bound.toNat * 2 ^ leadingZeros bound < 2 ^ 32) ∧
      (∀ answer < bound, {word | accept? bound word = some answer}.ncard = 2 ^ leadingZeros bound) ∧
      (∀ word answer, accept? bound word = some answer → answer < bound) ∧
      (∀ source : Seeded, (RandomSource.draw bound source).1 < bound) ∧
      2 ^ 31 ≤ {word | (accept? bound word).isSome}.ncard ∧
      ∀ (source : Seeded) (rejected : List UInt32) (word answer : UInt32) (rest : ChaCha.Stream),
        source.stream.nextMany (rejected.length + 1) = (rejected ++ [word], rest) →
        (∀ other ∈ rejected, accept? bound other = none) → accept? bound word = some answer →
        rejected.length < ChaCha.Stream.period →
        RandomSource.draw bound source = (answer, (⟨rest⟩ : Seeded))) ∧
    (∀ source : Seeded, RandomSource.draw 0 source = (0, source)) ∧
    ∀ chance : HitChance,
      {draw : UInt32 | draw < 10000 ∧
        (chance.decide ({ answers := [draw] } : Script)).value.1 = true}.ncard = chance.points ∧
      {word | (accept? 10000 word).isSome}.ncard = 10000 * 2 ^ 18 ∧
      {word | (accept? 10000 word).isSome ∧ ∀ source : Seeded, source.stream.next.1 = word →
        (chance.decide source).value.1 = true}.ncard = chance.points * 2 ^ 18 := by
  refine ⟨?_, fun source => rfl, ?_⟩
  · intro bound h
    refine ⟨scaled_leadingZeros h, fun answer => ncard_answer, fun word answer => lt_of_accept? h,
      ?_, ?_, ?_⟩
    · intro source
      rw [draw_of_ne_zero h]
      exact firstAccepted_lt h _ _
    · rw [ncard_accepted h]
      exact (scaled_leadingZeros h).1
    · intro source rejected word answer rest hstream hrejected haccept hperiod
      exact draw_eq h haccept rejected hrejected hstream hperiod
  · intro chance
    have hscale : (10000 : UInt32) ≠ 0 := by decide
    have haccepted := ncard_accepted hscale
    rw [leadingZeros_scale] at haccepted
    exact ⟨ncard_beaten chance, haccepted, ncard_hitting chance⟩

theorem draws_uniform_after_rejection :
    let stream : ChaCha.Stream :=
      { key := expandSeed 42, pending := [0xffffffff, 0x80000000, 7] }
    {word | accept? 10000 word = some 9999}.ncard = 2 ^ leadingZeros 10000 ∧
      RandomSource.draw 10000 (⟨stream⟩ : Seeded) =
        (5000, (⟨{ stream with pending := [7] }⟩ : Seeded)) := by
  intro stream
  obtain ⟨-, hshare, -, -, -, hdraw⟩ := draws_uniform.1 10000 (by decide)
  have hperiod : 1 < ChaCha.Stream.period := by
    rw [ChaCha.Stream.period_eq]
    decide
  have hrejected : ∀ other ∈ [0xffffffff], accept? 10000 other = none := by
    intro other hmem
    obtain rfl := List.mem_singleton.mp hmem
    decide
  have haccept : accept? 10000 0x80000000 = some 5000 := by decide
  refine ⟨hshare 9999 (by decide), ?_⟩
  exact hdraw ⟨stream⟩ [0xffffffff] 0x80000000 5000 { stream with pending := [7] } rfl hrejected
    haccept hperiod

end Seeded
end CombatAccuracy
