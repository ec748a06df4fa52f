import ChainFollower.Proofs.Game.Tally
import Mathlib.Algebra.Order.Floor.Div
import Mathlib.Data.List.Chain
import Mathlib.Data.Nat.Log

namespace ChainFollower

/-- A call to a game. -/
inductive GameCall
  | names
  | initial (network : Network)
  | forward (network : Network) (state : Bytes) (block : Json)
  | backward (network : Network) (state : Bytes) (block : Json) (undo : Bytes)

/-- What a game over buffers is handed. -/
inductive BufferedCall
  | names (buffers : NamesBuffers)
  | initial (network : Int) (buffers : InitialBuffers)
  | forward (network : Int) (state : Bytes) (block : String) (buffers : ForwardBuffers)
  | backward (network : Int) (state : Bytes) (block : String) (undo : Bytes) (buffer : Buffer)
  deriving DecidableEq

/-- The buffer, of that size, holds the data, and so much is reported of it. -/
structure Buffer.Holds (b : Buffer) (size written : Nat) (data : Bytes) : Prop where
  size_eq : b.size = size
  written_eq : written = data.length
  take_eq : b.take written = data

namespace GameCall

abbrev Result : GameCall → Type
  | .names => GameNames
  | .initial _ => InitialState
  | .forward _ _ _ => ForwardStep
  | .backward _ _ _ _ => Bytes

abbrev Buffers : GameCall → Type
  | .names => NamesBuffers
  | .initial _ => InitialBuffers
  | .forward _ _ _ => ForwardBuffers
  | .backward _ _ _ _ => Buffer

abbrev Written : GameCall → Type
  | .names => NamesWritten
  | .initial _ => InitialWritten
  | .forward _ _ _ => ForwardWritten
  | .backward _ _ _ _ => Nat

/-- A call as it is handed to a game over buffers: the inputs as they are, the block as text, and zeros. -/
def handed : GameCall → Nat → BufferedCall
  | .names, size => .names ⟨.zeros size, .zeros size, .zeros size⟩
  | .initial network, size => .initial network.code ⟨.zeros size, .zeros 64⟩
  | .forward network state block, size =>
    .forward network.code state block.text ⟨.zeros size, .zeros size⟩
  | .backward network state block undo, size =>
    .backward network.code state block.text undo (.zeros size)

/-- The length of the longest output. -/
def needed : (c : GameCall) → c.Result → Nat
  | .names, (result : GameNames) =>
    max (Utf8.encode result.id).length
      (max (Utf8.encode result.name).length (Utf8.encode result.version).length)
  | .initial _, (result : InitialState) => result.state.length
  | .forward _ _ _, (step : ForwardStep) => max step.state.length step.undo.length
  | .backward _ _ _ _, (state : Bytes) => state.length

/-- The buffers of a call hold its result, and so much is reported: texts as UTF-8, and a hash as 64
digits. -/
def Holds (size : Nat) : (c : GameCall) → c.Written → c.Buffers → c.Result → Prop
  | .names, (written : NamesWritten), (buffers : NamesBuffers), (result : GameNames) =>
    buffers.id.Holds size written.id (Utf8.encode result.id) ∧
      buffers.name.Holds size written.name (Utf8.encode result.name) ∧
      buffers.version.Holds size written.version (Utf8.encode result.version)
  | .initial _, (written : InitialWritten), (buffers : InitialBuffers), (result : InitialState) =>
    buffers.state.Holds size written.state result.state ∧ written.height = result.height ∧
      ∃ digits, buffers.hash.Holds 64 64 (Utf8.encode digits) ∧ Hash.ofHex? digits = some result.hash
  | .forward _ _ _, (written : ForwardWritten), (buffers : ForwardBuffers), (step : ForwardStep) =>
    buffers.state.Holds size written.state step.state ∧ buffers.undo.Holds size written.undo step.undo
  | .backward _ _ _ _, (written : Nat), (buffer : Buffer), (state : Bytes) =>
    buffer.Holds size written state

end GameCall

def Game.answer {σ : Type} (game : Game σ) : (c : GameCall) → σ → Except GameFailure c.Result × σ
  | .names => game.names
  | .initial network => game.initial network
  | .forward network state block => game.forward network state block
  | .backward network state block undo => game.backward network state block undo

namespace BufferedGame

variable {σ : Type}

/-- What a game does with a call that is handed to it with buffers of a size. -/
def call (g : BufferedGame σ) :
    (c : GameCall) → Nat → σ → (CallStatus c.Written × c.Buffers) × σ
  | .names, size => g.names ⟨.zeros size, .zeros size, .zeros size⟩
  | .initial network, size => g.initial network.code ⟨.zeros size, .zeros 64⟩
  | .forward network state block, size =>
    g.forward network.code state block.text ⟨.zeros size, .zeros size⟩
  | .backward network state block undo, size =>
    g.backward network.code state block.text undo (.zeros size)

/-- The same game, with a list of what it has been handed. -/
def logged (g : BufferedGame σ) : BufferedGame (σ × List BufferedCall) where
  names buffers s :=
    let (report, inner) := g.names buffers s.1
    (report, inner, s.2 ++ [.names buffers])
  initial network buffers s :=
    let (report, inner) := g.initial network buffers s.1
    (report, inner, s.2 ++ [.initial network buffers])
  forward network state block buffers s :=
    let (report, inner) := g.forward network state block buffers s.1
    (report, inner, s.2 ++ [.forward network state block buffers])
  backward network state block undo buffer s :=
    let (report, inner) := g.backward network state block undo buffer s.1
    (report, inner, s.2 ++ [.backward network state block undo buffer])

/-- The game computes its results from its inputs. They are in the buffers when all of them fit; when not,
it asks for more, but for no more than the longest takes, and leaves anything in the buffers. -/
def Computes (g : BufferedGame σ) (f : (c : GameCall) → c.Result) : Prop :=
  ∀ (c : GameCall) (size : Nat) (s : σ),
    if c.needed (f c) ≤ size then
      ∃ written buffers, (g.call c size s).1 = (.complete written, buffers) ∧
        c.Holds size written buffers (f c)
    else
      ∃ required buffers, (g.call c size s).1 = (.tooSmall required, buffers) ∧
        1 ≤ required ∧ required ≤ c.needed (f c)

theorem call_logged (g : BufferedGame σ) (c : GameCall) (size : Nat) (s : σ) (log : List BufferedCall) :
    g.logged.call c size (s, log) =
      ((g.call c size s).1, (g.call c size s).2, log ++ [c.handed size]) := by
  cases c <;> rfl

end BufferedGame

namespace Buffered

variable {σ ω β α δ : Type}

theorem check_holds {buffer : Buffer} {size written : Nat} {data : Bytes}
    (h : buffer.Holds size written data) (hfits : data.length ≤ size) (what : String) :
    check buffer written what = .ok () := by
  rw [check, if_pos]
  rw [h.size_eq, h.written_eq]
  exact hfits

/-- What is looked at to tell whether a text was written is the text, or it is a text because this one is. -/
theorem exists_sample {buffer : Buffer} {size written : Nat} {text : String}
    (h : buffer.Holds size written (Utf8.encode text)) (hfits : (Utf8.encode text).length ≤ size) :
    ∃ shorter, Utf8.encode shorter = buffer.sample written := by
  have hsize : written ≤ buffer.size := by
    rw [h.size_eq, h.written_eq]
    exact hfits
  by_cases hcut : buffer.fill < 0x80 ∧ buffer.front.length + 1 < written
  · obtain ⟨hascii, hlong⟩ := hcut
    have htake (n : Nat) (hn : n ≤ buffer.size) (hfront : buffer.front.length ≤ n) :
        buffer.take n = buffer.front ++ List.replicate (n - buffer.front.length) buffer.fill := by
      rw [Buffer.take, List.take_of_length_le hfront, Nat.min_eq_left hn]
    have hsample : Utf8.encodeChars text.toList =
        buffer.sample written ++ List.replicate (written - (buffer.front.length + 1)) buffer.fill := by
      have htext : buffer.take written = Utf8.encodeChars text.toList := h.take_eq
      rw [Buffer.sample, if_pos hascii, Nat.min_eq_right (by omega), ← htext,
        htake written hsize (by omega), htake _ (by omega) (by omega), List.append_assoc,
        List.replicate_append_replicate]
      congr 2
      omega
    obtain ⟨cs, hcs⟩ := Utf8.exists_encodeChars hascii hsample
    exact ⟨String.ofList cs, by rw [Utf8.encode, String.toList_ofList, hcs]⟩
  · refine ⟨text, ?_⟩
    have hall : buffer.sample written = buffer.take written := by
      unfold Buffer.sample
      split
      · next hascii =>
        have hmin : min written (buffer.front.length + 1) = written := by
          have hshort : ¬buffer.front.length + 1 < written := fun hlong => hcut ⟨hascii, hlong⟩
          omega
        rw [hmin]
      · rfl
    rw [hall, h.take_eq]

theorem checkText_holds {buffer : Buffer} {size written : Nat} {text : String}
    (h : buffer.Holds size written (Utf8.encode text)) (hfits : (Utf8.encode text).length ≤ size)
    (what : String) : checkText buffer written what = .ok () := by
  obtain ⟨shorter, hshorter⟩ := exists_sample h hfits
  unfold checkText
  rw [check_holds h hfits what, ← hshorter]
  simp only [Utf8.decode_encode]
  rfl

theorem text_holds {buffer : Buffer} {size written : Nat} {text : String}
    (h : buffer.Holds size written (Utf8.encode text)) : Buffered.text buffer written = text := by
  rw [Buffered.text, h.take_eq, Utf8.decode?_encode]
  rfl

theorem hash?_holds {buffer : Buffer} {digits : String} (h : buffer.Holds 64 64 (Utf8.encode digits)) :
    hash? buffer = Hash.ofHex? digits := by
  rw [hash?, Buffer.toBytes, h.size_eq, h.take_eq, Utf8.decode?_encode]
  rfl

/-- A call to the adapter reads its result from the buffers that hold it. -/
theorem exists_finish (c : GameCall) :
    ∃ finish : c.Written → c.Buffers → Except GameFailure c.Result,
      (∀ (σ : Type) (g : BufferedGame σ) (b : Buffered σ),
        (Buffered.game g).answer c b = retry (g.call c) finish b) ∧
      ∀ size written buffers result, c.needed result ≤ size → c.Holds size written buffers result →
        finish written buffers = .ok result := by
  cases c with
  | names =>
    refine ⟨_, fun _ _ _ => rfl, ?_⟩
    rintro size written buffers (result : GameNames) hfits ⟨hid, hname, hversion⟩
    simp only [GameCall.needed, max_le_iff] at hfits
    simp only [checkText_holds hid hfits.1, checkText_holds hname hfits.2.1,
      checkText_holds hversion hfits.2.2, text_holds hid, text_holds hname, text_holds hversion]
    rfl
  | initial network =>
    refine ⟨_, fun _ _ _ => rfl, ?_⟩
    rintro size written buffers (result : InitialState) hfits ⟨hstate, hheight, digits, hdigits, hhash⟩
    simp only [GameCall.needed] at hfits
    simp only [check_holds hstate hfits, hash?_holds hdigits, hhash, hstate.take_eq, hheight]
    rfl
  | forward network state block =>
    refine ⟨_, fun _ _ _ => rfl, ?_⟩
    rintro size written buffers (result : ForwardStep) hfits ⟨hstate, hundo⟩
    simp only [GameCall.needed, max_le_iff] at hfits
    simp only [check_holds hstate hfits.1, check_holds hundo hfits.2, hstate.take_eq, hundo.take_eq]
    rfl
  | backward network state block undo =>
    refine ⟨_, fun _ _ _ => rfl, ?_⟩
    rintro size (written : Nat) (buffer : Buffer) (result : Bytes) hfits (hold : buffer.Holds _ _ _)
    simp only [GameCall.needed] at hfits
    simp only [check_holds hold hfits, hold.take_eq]
    rfl

section Retry

variable {call : Nat → σ → (CallStatus ω × β) × σ} {finish : ω → β → Except GameFailure α} {needed : Nat}
  {result : α} {note : Nat → δ} {noted : Nat → σ × List δ → (CallStatus ω × β) × (σ × List δ)}

theorem retry_of_complete {b : Buffered σ} {written : ω} {buffers : β} (hmax : b.size ≤ maxSize)
    (h : (call b.size b.inner).1 = (.complete written, buffers)) :
    retry call finish b = (finish written buffers, ⟨(call b.size b.inner).2, b.size⟩) := by
  rw [retry, dif_neg (Nat.not_lt.mpr hmax)]
  simp only [h]

theorem retry_of_tooSmall {b : Buffered σ} {required : Nat} {buffers : β} (hmax : b.size ≤ maxSize)
    (h : (call b.size b.inner).1 = (.tooSmall required, buffers)) (hrequired : 1 ≤ required) :
    retry call finish b =
      retry call finish ⟨(call b.size b.inner).2, max required (2 * b.size)⟩ := by
  rw [retry, dif_neg (Nat.not_lt.mpr hmax)]
  simp only [h]
  rw [dif_neg (by omega)]

theorem retry_of_large {b : Buffered σ} (h : maxSize < b.size) :
    retry call finish b = (.error (.broken .tooLarge), b) := by
  rw [retry, dif_pos h]

/-- The sizes of the buffers that a call is made with where the results need so many bytes, from the
current size to the one that is kept: each of them is at least twice the one before, and there are no more
requests than doublings to what is needed. -/
structure Tries (needed size : Nat) (sizes : List Nat) (kept : Nat) : Prop where
  head : sizes.head? = some size
  doubles : sizes.IsChain fun size next => 2 * size ≤ next
  length_le : ∀ k, needed ≤ size * 2 ^ k → sizes.length ≤ 1 + k
  size_le : size ≤ kept
  stays : needed ≤ size → kept = size
  le_kept : size < needed → 2 * size ≤ kept
  kept_lt : size < needed → kept < 2 * needed

theorem Tries.fits {size : Nat} (h : needed ≤ size) : Tries needed size [size] size where
  head := rfl
  doubles := .singleton size
  length_le k _ := Nat.le_add_right 1 k
  size_le := Nat.le_refl size
  stays _ := rfl
  le_kept hshort := absurd h (Nat.not_le.mpr hshort)
  kept_lt hshort := absurd h (Nat.not_le.mpr hshort)

theorem Tries.grow {size next kept : Nat} {sizes : List Nat} (hshort : size < needed)
    (hdouble : 2 * size ≤ next) (hnext : next < 2 * needed) (h : Tries needed next sizes kept) :
    Tries needed size (size :: sizes) kept where
  head := rfl
  doubles := by
    refine List.isChain_cons.mpr ⟨fun other hother => ?_, h.doubles⟩
    rw [h.head] at hother
    cases hother
    exact hdouble
  length_le k hk := by
    cases k with
    | zero =>
      rw [Nat.pow_zero, Nat.mul_one] at hk
      omega
    | succ k =>
      have hle : size * 2 ^ (k + 1) ≤ next * 2 ^ k := by
        rw [Nat.pow_succ', ← Nat.mul_assoc, Nat.mul_comm size 2]
        exact Nat.mul_le_mul_right _ hdouble
      have hrest := h.length_le k (Nat.le_trans hk hle)
      rw [List.length_cons]
      omega
  size_le := Nat.le_trans (by omega) h.size_le
  stays hfits := absurd hfits (Nat.not_le.mpr hshort)
  le_kept _ := Nat.le_trans hdouble h.size_le
  kept_lt _ := by
    by_cases hfits : needed ≤ next
    · rw [h.stays hfits]
      exact hnext
    · exact h.kept_lt (Nat.not_le.mp hfits)

/-- The size that would have to be tried next is not to be had. -/
theorem Tries.last {size next : Nat} (hshort : size < needed) (hdouble : 2 * size ≤ next)
    (hnext : next < 2 * needed) : Tries needed size [size] next where
  head := rfl
  doubles := .singleton size
  length_le k _ := Nat.le_add_right 1 k
  size_le := by omega
  stays hfits := absurd hfits (Nat.not_le.mpr hshort)
  le_kept _ := hdouble
  kept_lt _ := hnext

/-- Buffers that are large enough take one call. -/
theorem retry_once
    (hfits : ∀ size s, needed ≤ size → ∃ written buffers,
      (call size s).1 = (.complete written, buffers) ∧ finish written buffers = .ok result)
    (hnoted : ∀ size s log, noted size (s, log) = ((call size s).1, (call size s).2, log ++ [note size]))
    {b : Buffered σ} (hmax : b.size ≤ maxSize) (henough : needed ≤ b.size) :
    ∃ inner, retry call finish b = (.ok result, ⟨inner, b.size⟩) ∧
      ∀ log, retry noted finish ⟨(b.inner, log), b.size⟩ =
        (.ok result, ⟨(inner, log ++ [note b.size]), b.size⟩) := by
  obtain ⟨written, buffers, hcall, hfinish⟩ := hfits b.size b.inner henough
  refine ⟨_, (retry_of_complete hmax hcall).trans (by rw [hfinish]), fun log => ?_⟩
  have hlogged := hnoted b.size b.inner log
  rw [retry_of_complete (b := ⟨(b.inner, log), b.size⟩) hmax ((congrArg Prod.fst hlogged).trans hcall),
    hlogged, hfinish]

/-- Buffers that are too small are tried again, at least twice as large. -/
theorem retry_grown (finish : ω → β → Except GameFailure α)
    (hnoted : ∀ size s log, noted size (s, log) = ((call size s).1, (call size s).2, log ++ [note size]))
    {b : Buffered σ} {required : Nat} {buffers : β} (hmax : b.size ≤ maxSize)
    (hcall : (call b.size b.inner).1 = (.tooSmall required, buffers)) (hrequired : 1 ≤ required) :
    retry call finish b = retry call finish ⟨(call b.size b.inner).2, max required (2 * b.size)⟩ ∧
      ∀ log, retry noted finish ⟨(b.inner, log), b.size⟩ =
        retry noted finish ⟨((call b.size b.inner).2, log ++ [note b.size]), max required (2 * b.size)⟩ := by
  refine ⟨retry_of_tooSmall hmax hcall hrequired, fun log => ?_⟩
  have hlogged := hnoted b.size b.inner log
  have hstep : retry noted finish ⟨(b.inner, log), b.size⟩ = _ :=
    retry_of_tooSmall hmax ((congrArg Prod.fst hlogged).trans hcall) hrequired
  rw [hlogged] at hstep
  exact hstep

theorem exists_tries
    (hfits : ∀ size s, needed ≤ size → ∃ written buffers,
      (call size s).1 = (.complete written, buffers) ∧ finish written buffers = .ok result)
    (hshort : ∀ size s, size < needed → ∃ required buffers,
      (call size s).1 = (.tooSmall required, buffers) ∧ 1 ≤ required ∧ required ≤ needed)
    (hnoted : ∀ size s log, noted size (s, log) = ((call size s).1, (call size s).2, log ++ [note size]))
    {b : Buffered σ} (hmax : b.size ≤ maxSize) :
    ∃ (answer : Except GameFailure α) (b' : Buffered σ) (sizes : List Nat),
      retry call finish b = (answer, b') ∧
      (∀ log, retry noted finish ⟨(b.inner, log), b.size⟩ =
        (answer, ⟨(b'.inner, log ++ sizes.map note), b'.size⟩)) ∧
      Tries needed b.size sizes b'.size ∧
      (answer = .ok result ∧ sizes.getLast? = some b'.size ∧ needed ≤ b'.size ∧ b'.size ≤ maxSize ∨
        2 ^ 62 < needed ∧ answer = .error (.broken .tooLarge)) := by
  have hlimit : maxSize = 2 ^ 63 - 1 := rfl
  -- What is missing becomes less with every request.
  induction hmissing : needed - b.size using Nat.strong_induction_on generalizing b with
  | h missing ih =>
    rcases Nat.lt_or_ge b.size needed with hless | henough
    · obtain ⟨required, buffers, hcall, hpos, hle⟩ := hshort b.size b.inner hless
      obtain ⟨hgrow, hgrow'⟩ := retry_grown finish hnoted hmax hcall hpos
      have hdouble : 2 * b.size ≤ max required (2 * b.size) := Nat.le_max_right _ _
      have hnext : max required (2 * b.size) < 2 * needed := by omega
      rcases Nat.lt_or_ge maxSize (max required (2 * b.size)) with hlarge | hsmall
      · refine ⟨_, _, [b.size], hgrow.trans (retry_of_large hlarge), fun log => ?_,
          .last hless hdouble hnext, .inr ⟨by omega, rfl⟩⟩
        rw [hgrow', retry_of_large hlarge]
        rfl
      · obtain ⟨answer, b', sizes, hrun, hrun', htries, hanswer⟩ :=
          ih (needed - max required (2 * b.size)) (by omega)
            (b := ⟨(call b.size b.inner).2, max required (2 * b.size)⟩) hsmall rfl
        refine ⟨answer, b', b.size :: sizes, hgrow.trans hrun, fun log => ?_,
          htries.grow hless hdouble hnext, ?_⟩
        · rw [hgrow', hrun', List.map_cons, List.append_assoc]
          rfl
        · rcases hanswer with ⟨hok, hlast, hneeded⟩ | hfailed
          · refine .inl ⟨hok, ?_, hneeded⟩
            rw [List.getLast?_cons, hlast]
            rfl
          · exact .inr hfailed
    · obtain ⟨inner, hrun, hrun'⟩ := retry_once hfits hnoted hmax henough
      exact ⟨_, _, [b.size], hrun, hrun', .fits henough, .inl ⟨rfl, rfl, henough, hmax⟩⟩

/-- A game that asks for just what its results need is asked again only once. -/
theorem exists_two_tries
    (hfits : ∀ size s, needed ≤ size → ∃ written buffers,
      (call size s).1 = (.complete written, buffers) ∧ finish written buffers = .ok result)
    (hshort : ∀ size s, size < needed → ∃ buffers, (call size s).1 = (.tooSmall needed, buffers))
    (hnoted : ∀ size s log, noted size (s, log) = ((call size s).1, (call size s).2, log ++ [note size]))
    {b : Buffered σ} (hmax : b.size ≤ maxSize) :
    ∃ (answer : Except GameFailure α) (b' : Buffered σ) (sizes : List Nat),
      retry call finish b = (answer, b') ∧
      (∀ log, retry noted finish ⟨(b.inner, log), b.size⟩ =
        (answer, ⟨(b'.inner, log ++ sizes.map note), b'.size⟩)) ∧
      sizes.length ≤ 2 ∧
      (answer = .ok result ∨ maxSize < 2 * needed ∧ answer = .error (.broken .tooLarge)) := by
  rcases Nat.lt_or_ge b.size needed with hless | henough
  · obtain ⟨buffers, hcall⟩ := hshort b.size b.inner hless
    obtain ⟨hgrow, hgrow'⟩ := retry_grown finish hnoted hmax hcall (by omega)
    rcases Nat.lt_or_ge maxSize (max needed (2 * b.size)) with hlarge | hsmall
    · refine ⟨_, _, [b.size], hgrow.trans (retry_of_large hlarge), fun log => ?_, by simp,
        .inr ⟨by omega, rfl⟩⟩
      rw [hgrow', retry_of_large hlarge]
      rfl
    · obtain ⟨inner, hrun, hrun'⟩ := retry_once hfits hnoted
        (b := ⟨(call b.size b.inner).2, max needed (2 * b.size)⟩) hsmall (Nat.le_max_left _ _)
      refine ⟨_, _, [b.size, max needed (2 * b.size)], hgrow.trans hrun, fun log => ?_, by simp, .inl rfl⟩
      rw [hgrow', hrun', List.append_assoc]
      rfl
  · obtain ⟨inner, hrun, hrun'⟩ := retry_once hfits hnoted hmax henough
    exact ⟨_, _, [b.size], hrun, hrun', by simp, .inl rfl⟩

end Retry

/-- A game behind the adapter after any calls, as long as every buffer could be made. -/
inductive Used (g : BufferedGame σ) : Buffered σ → Prop
  | start (inner : σ) : Used g (.start inner)
  | call {b : Buffered σ} (c : GameCall) : Used g b →
      ((Buffered.game g).answer c b).1 ≠ .error (.broken .tooLarge) →
      Used g ((Buffered.game g).answer c b).2

variable {g : BufferedGame σ} {f : (c : GameCall) → c.Result} {b : Buffered σ}

/-- Every call to the adapter repeats one call to the game, until the results are in the buffers. -/
theorem exists_retry (hg : g.Computes f) (c : GameCall) :
    ∃ finish : c.Written → c.Buffers → Except GameFailure c.Result,
      (∀ (σ : Type) (g : BufferedGame σ) (b : Buffered σ),
        (Buffered.game g).answer c b = retry (g.call c) finish b) ∧
      ∀ size s, c.needed (f c) ≤ size → ∃ written buffers,
        (g.call c size s).1 = (.complete written, buffers) ∧ finish written buffers = .ok (f c) := by
  obtain ⟨finish, hretry, hfinish⟩ := exists_finish c
  refine ⟨finish, hretry, fun size s hfits => ?_⟩
  have hcall := hg c size s
  rw [if_pos hfits] at hcall
  obtain ⟨written, buffers, hcomplete, hholds⟩ := hcall
  exact ⟨written, buffers, hcomplete, hfinish size written buffers (f c) hfits hholds⟩

theorem exists_answer_tries (hg : g.Computes f) (hmax : b.size ≤ maxSize) (c : GameCall) :
    ∃ (answer : Except GameFailure c.Result) (b' : Buffered σ) (sizes : List Nat),
      (Buffered.game g).answer c b = (answer, b') ∧
      (∀ log, (Buffered.game g.logged).answer c ⟨(b.inner, log), b.size⟩ =
        (answer, ⟨(b'.inner, log ++ sizes.map c.handed), b'.size⟩)) ∧
      Tries (c.needed (f c)) b.size sizes b'.size ∧
      (answer = .ok (f c) ∧ sizes.getLast? = some b'.size ∧ c.needed (f c) ≤ b'.size ∧
          b'.size ≤ maxSize ∨
        2 ^ 62 < c.needed (f c) ∧ answer = .error (.broken .tooLarge)) := by
  obtain ⟨finish, hretry, hfits⟩ := exists_retry hg c
  simp only [hretry]
  refine exists_tries hfits (fun size s hless => ?_) (g.call_logged c) hmax
  have hcall := hg c size s
  rwa [if_neg (Nat.not_le.mpr hless)] at hcall

theorem Used.bounds (hg : g.Computes f) (hb : Used g b) : initialSize ≤ b.size ∧ b.size ≤ maxSize := by
  induction hb with
  | start inner => exact ⟨Nat.le_refl initialSize, show initialSize ≤ maxSize by decide⟩
  | call c _ hmade ih =>
    obtain ⟨answer, b', sizes, hanswer, -, htries, hresult⟩ := exists_answer_tries hg ih.2 c
    rw [hanswer] at hmade ⊢
    refine ⟨Nat.le_trans ih.1 htries.size_le, ?_⟩
    rcases hresult with ⟨-, -, -, hmax⟩ | ⟨-, hfailed⟩
    · exact hmax
    · exact absurd hfailed hmade

/-- The adapter gives what the game computes, whatever was called before and whatever size the buffers
have, unless they would have to be larger than any can be. Every call to the game gets the same inputs and
buffers of zeros, of the current size at first and then at least twice as large each time, and there are
no more of them than it takes to double the size up to what is needed. No buffer holds more than `maxSize`
bytes, which is where the last alternative comes from: to double a size that results of more than `2 ^ 62`
bytes do not fit in can lead over that capacity limit. -/
theorem answer_computes (hg : g.Computes f) (hb : Used g b) (c : GameCall) :
    initialSize ≤ b.size ∧
      ∃ (answer : Except GameFailure c.Result) (b' : Buffered σ) (sizes : List Nat),
        (Buffered.game g).answer c b = (answer, b') ∧
        (∀ log, (Buffered.game g.logged).answer c ⟨(b.inner, log), b.size⟩ =
          (answer, ⟨(b'.inner, log ++ sizes.map c.handed), b'.size⟩)) ∧
        sizes.head? = some b.size ∧ sizes.IsChain (fun size next => 2 * size ≤ next) ∧
        sizes.length ≤ 1 + Nat.clog 2 (c.needed (f c) ⌈/⌉ b.size) ∧
        b.size ≤ b'.size ∧
        (c.needed (f c) ≤ b.size → b'.size = b.size) ∧
        (b.size < c.needed (f c) → b'.size < 2 * c.needed (f c)) ∧
        (answer = .ok (f c) ∧ sizes.getLast? = some b'.size ∧ c.needed (f c) ≤ b'.size ∨
          2 ^ 62 < c.needed (f c) ∧ answer = .error (.broken .tooLarge)) := by
  obtain ⟨hmin, hmax⟩ := hb.bounds hg
  obtain ⟨answer, b', sizes, hanswer, hlogged, htries, hresult⟩ := exists_answer_tries hg hmax c
  have hpos : 0 < b.size := Nat.lt_of_lt_of_le (by decide) hmin
  have hdoublings : c.needed (f c) ≤ b.size * 2 ^ Nat.clog 2 (c.needed (f c) ⌈/⌉ b.size) :=
    (ceilDiv_le_iff_le_mul hpos).mp (Nat.le_pow_clog (by decide) _)
  refine ⟨hmin, answer, b', sizes, hanswer, hlogged, htries.head, htries.doubles,
    htries.length_le _ hdoublings, htries.size_le, htries.stays, htries.kept_lt, ?_⟩
  rcases hresult with ⟨hok, hlast, hneeded, -⟩ | hfailed
  · exact .inl ⟨hok, hlast, hneeded⟩
  · exact .inr hfailed

end Buffered

namespace Tally

/-- What the game that counts moves computes. -/
def results (start : Tip) : (c : GameCall) → c.Result
  | .names => ⟨id, "Move tally", "0.1.0"⟩
  | .initial _ => ⟨[], start.height, start.hash⟩
  | .forward _ state block => ⟨state ++ Bytes.ofUInt32 (moveCount block.text), []⟩
  | .backward _ state _ _ => state.take (state.length - 4)

theorem holds_write {size : Nat} {data : Bytes} (h : data.length ≤ size) :
    (write (.zeros size) data).Holds size data.length data :=
  ⟨size_write _ _, rfl, take_write h⟩

theorem holds_nothing (size : Nat) : (Buffer.zeros size).Holds size 0 [] :=
  ⟨rfl, rfl, by simp [Buffer.take, Buffer.zeros, Buffer.filled]⟩

theorem computes_report {ω β : Type} {P : ω → β → Prop} {needed size : Nat} {written : ω} {buffers : β}
    (h : needed ≤ size → P written buffers) :
    if needed ≤ size then
      ∃ w b, (report (needed ≤ size) written needed, buffers) = (.complete w, b) ∧ P w b
    else
      ∃ required b, (report (needed ≤ size) written needed, buffers) = (.tooSmall required, b) ∧
        1 ≤ required ∧ required ≤ needed := by
  split
  · next hfits => exact ⟨written, buffers, by simp [report, hfits], h hfits⟩
  · next hless => exact ⟨needed, buffers, by simp [report, hless], by omega, Nat.le_refl needed⟩

variable {start : Tip} {network : Network} {state : Bytes} {b : Buffered Unit}

theorem needed_names (start : Tip) : GameCall.needed .names (results start .names) = 10 := by
  have hlengths : max (Utf8.encode id).length
      (max (Utf8.encode "Move tally").length (Utf8.encode "0.1.0").length) = 10 := by decide +kernel
  exact hlengths

theorem needed_forward (start : Tip) (network : Network) (state : Bytes) (block : Json) :
    GameCall.needed (.forward network state block) (results start (.forward network state block)) =
      state.length + 4 :=
  (Nat.max_zero _).trans (length_next state block)

theorem computes_calls (σ : Type) (start : Tip) :
    (calls start : BufferedGame σ).Computes (results start) := by
  intro c size s
  cases c with
  | names =>
    have hcall : ((calls start).call .names size s).1 = _ := names_zeros size
    rw [needed_names, hcall]
    refine computes_report fun hfits => ?_
    exact ⟨holds_write (Nat.le_trans (by decide) hfits), holds_write hfits,
      holds_write (Nat.le_trans (by decide) hfits)⟩
  | initial network =>
    rw [if_pos (show GameCall.needed (.initial network) (results start (.initial network)) ≤ size from
      Nat.zero_le size)]
    have hdigits : (Utf8.encode start.hash.toHex).length = 64 := by
      rw [Hash.toHex, Hex.encode_ofBytes, Hex.length_codes, start.hash.length_bytes]
    have hwritten : ((Buffer.zeros 64).write (Utf8.encode start.hash.toHex)).take 64 =
        Utf8.encode start.hash.toHex := by
      have htake := Buffer.take_write (b := .zeros 64) (Nat.le_of_eq hdigits)
      rwa [hdigits] at htake
    exact ⟨_, _, rfl, holds_nothing size, rfl, start.hash.toHex, ⟨rfl, hdigits.symm, hwritten⟩,
      Hash.ofHex?_toHex _⟩
  | forward network state block =>
    rw [needed_forward, ← length_next state block]
    exact computes_report fun hfits => ⟨holds_write hfits, holds_nothing size⟩
  | backward network state block undo =>
    exact computes_report fun hfits => holds_write hfits

/-- A state that gets longer than the first buffers. -/
theorem answer_computes_tally :
    ∃ b' : Buffered Unit,
      (game ⟨7, .zero⟩).answer (.forward .regtest (List.replicate 1022 0) .null) (.start ()) =
        (.ok ⟨List.replicate 1022 0 ++ Bytes.ofUInt32 (moveCount (Json.null.text)), []⟩, b') ∧
      1026 ≤ b'.size ∧ b'.size < 2052 := by
  obtain ⟨-, answer, b', sizes, hanswer, -, -, -, -, -, -, hbound, hresult⟩ :=
    Buffered.answer_computes (computes_calls Unit ⟨7, .zero⟩) (.start ())
      (.forward .regtest (List.replicate 1022 0) .null)
  have hneeded : GameCall.needed (.forward .regtest (List.replicate 1022 0) .null)
      (results ⟨7, .zero⟩ (.forward .regtest (List.replicate 1022 0) .null)) = 1026 := by
    rw [needed_forward, List.length_replicate]
  rw [hneeded] at hbound hresult
  rcases hresult with ⟨rfl, -, hsize⟩ | ⟨hlarge, -⟩
  · exact ⟨b', hanswer, hsize, hbound (by decide)⟩
  · exact absurd hlarge (by decide)

theorem answer_eq (start : Tip) (c : GameCall) (hsize : b.size ≤ Buffered.maxSize)
    (hneeded : c.needed (results start c) ≤ 2 ^ 62) :
    ∃ size, size ≤ Buffered.maxSize ∧ (game start).answer c b = (.ok (results start c), ⟨(), size⟩) := by
  obtain ⟨answer, b', sizes, hanswer, -, -, hresult⟩ :=
    Buffered.exists_answer_tries (computes_calls Unit start) hsize c
  rcases hresult with ⟨rfl, -, -, hmax⟩ | ⟨hlarge, -⟩
  · exact ⟨b'.size, hmax, hanswer⟩
  · omega

theorem names_eq (start : Tip) (hsize : b.size ≤ Buffered.maxSize) :
    ∃ size, size ≤ Buffered.maxSize ∧ (game start).names b =
      (.ok ⟨id, "Move tally", "0.1.0"⟩, ⟨(), size⟩) := by
  refine answer_eq start .names hsize ?_
  rw [needed_names]
  omega

theorem initial_eq (start : Tip) (network : Network) (hsize : b.size ≤ Buffered.maxSize) :
    ∃ size, size ≤ Buffered.maxSize ∧ (game start).initial network b =
      (.ok ⟨[], start.height, start.hash⟩, ⟨(), size⟩) :=
  answer_eq start (.initial network) hsize (Nat.zero_le _)

theorem forward_eq (start : Tip) (network : Network) (block : Json) (hsize : b.size ≤ Buffered.maxSize)
    (hlength : state.length + 4 ≤ 2 ^ 62) :
    ∃ size, size ≤ Buffered.maxSize ∧ (game start).forward network state block b =
      (.ok ⟨state ++ Bytes.ofUInt32 (moveCount block.text), []⟩, ⟨(), size⟩) := by
  refine answer_eq start (.forward network state block) hsize ?_
  rw [needed_forward]
  exact hlength

theorem backward_eq (start : Tip) (network : Network) (block : Json) (undo : Bytes)
    (hsize : b.size ≤ Buffered.maxSize) (hlength : state.length ≤ 2 ^ 62) :
    ∃ size, size ≤ Buffered.maxSize ∧ (game start).backward network state block undo b =
      (.ok (state.take (state.length - 4)), ⟨(), size⟩) := by
  refine answer_eq start (.backward network state block undo) hsize ?_
  show (state.take (state.length - 4)).length ≤ 2 ^ 62
  rw [List.length_take]
  omega

/-- There is no buffer twice as large. -/
theorem forward_tooLarge (start : Tip) (network : Network) (block : Json) (hsize : b.size = 2 ^ 62)
    (hlength : 2 ^ 62 < state.length + 4) :
    ((game start).forward network state block b).1 = .error (.broken .tooLarge) := by
  have hlimit : Buffered.maxSize = 2 ^ 63 - 1 := rfl
  have hmax : b.size ≤ Buffered.maxSize := by omega
  obtain ⟨answer, b', sizes, hanswer, -, htries, hresult⟩ :=
    Buffered.exists_answer_tries (computes_calls Unit start) hmax (.forward network state block)
  have hgrown := htries.le_kept (by rw [needed_forward, hsize]; exact hlength)
  rcases hresult with ⟨-, -, -, hmax'⟩ | ⟨-, rfl⟩
  · omega
  · exact congrArg Prod.fst hanswer

end Tally

end ChainFollower
