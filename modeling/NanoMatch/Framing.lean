import Mathlib.Data.List.Basic
import Mathlib.Tactic

/-!
# Framing

A stream is cut into frames by a function which reads the length of the first
frame off the front of the stream.  It looks at nothing behind that frame.  Then
every stream is, in exactly one way, a run of frames followed by a rest which
begins with no frame.
-/

structure Framing (α : Type*) where
  next : List α → Option ℕ
  bounds : ∀ {stream n}, next stream = some n → 0 < n ∧ n ≤ stream.length
  front : ∀ {stream n}, next stream = some n → ∀ rest, next (stream.take n ++ rest) = some n

namespace Framing

variable {α : Type*} (framing : Framing α)

def IsFrame (frame : List α) : Prop := framing.next frame = some frame.length

structure Splits (stream : List α) (frames : List (List α)) (rest : List α) : Prop where
  stream_eq : stream = frames.flatten ++ rest
  isFrame : ∀ frame ∈ frames, framing.IsFrame frame
  stuck : framing.next rest = none

variable {framing} {stream frame rest rest' : List α} {frames frames' : List (List α)} {n : ℕ}

theorem IsFrame.next_append (hframe : framing.IsFrame frame) (rest : List α) :
    framing.next (frame ++ rest) = some frame.length := by
  have hfront := framing.front hframe rest
  rwa [List.take_length] at hfront

theorem isFrame_take (hnext : framing.next stream = some n) :
    framing.IsFrame (stream.take n) := by
  have hfront := framing.front hnext []
  have hle := (framing.bounds hnext).2
  rw [List.append_nil] at hfront
  unfold IsFrame
  rw [hfront, List.length_take, Nat.min_eq_left hle]

theorem Splits.tail (hsplits : framing.Splits stream (frame :: frames) rest) :
    framing.Splits (frames.flatten ++ rest) frames rest where
  stream_eq := rfl
  isFrame other hother := hsplits.isFrame other (by simp [hother])
  stuck := hsplits.stuck

theorem exists_splits (framing : Framing α) (stream : List α) :
    ∃ frames rest, framing.Splits stream frames rest := by
  induction hlength : stream.length using Nat.strong_induction_on generalizing stream with
  | _ length ih =>
      cases hnext : framing.next stream with
      | none => exact ⟨[], stream, by simp, by simp, hnext⟩
      | some n =>
          have hbounds := framing.bounds hnext
          rcases ih (stream.drop n).length (by rw [List.length_drop]; omega) (stream.drop n)
            rfl with ⟨frames, rest, hsplits⟩
          refine ⟨stream.take n :: frames, rest, ?_, ?_, hsplits.stuck⟩
          · rw [List.flatten_cons, List.append_assoc, ← hsplits.stream_eq,
              List.take_append_drop]
          · intro frame hframe
            rcases List.mem_cons.mp hframe with rfl | hmem
            · exact isFrame_take hnext
            · exact hsplits.isFrame frame hmem

/-- The first frame decides where the second one begins. -/
theorem Splits.unique (hsplits : framing.Splits stream frames rest)
    (hsplits' : framing.Splits stream frames' rest') : frames' = frames ∧ rest' = rest := by
  induction frames generalizing stream frames' with
  | nil =>
      have hstuck := hsplits.stuck
      have hstream := hsplits.stream_eq
      rw [List.flatten_nil, List.nil_append] at hstream
      rw [← hstream, hsplits'.stream_eq] at hstuck
      cases frames' with
      | nil =>
          refine ⟨rfl, ?_⟩
          rw [← hstream, hsplits'.stream_eq]
          rfl
      | cons frame frames' =>
          have hframe := hsplits'.isFrame frame (by simp)
          rw [List.flatten_cons, List.append_assoc, hframe.next_append] at hstuck
          exact absurd hstuck (by simp)
  | cons frame frames ih =>
      have hframe := hsplits.isFrame frame (by simp)
      have hfirst := hframe.next_append (frames.flatten ++ rest)
      have hstream := hsplits.stream_eq
      rw [List.flatten_cons, List.append_assoc] at hstream
      rw [← hstream, hsplits'.stream_eq] at hfirst
      cases frames' with
      | nil =>
          rw [List.flatten_nil, List.nil_append, hsplits'.stuck] at hfirst
          exact absurd hfirst (by simp)
      | cons frame' frames' =>
          have hframe' := hsplits'.isFrame frame' (by simp)
          rw [List.flatten_cons, List.append_assoc, hframe'.next_append,
            Option.some.injEq] at hfirst
          have hboth : frame' ++ (frames'.flatten ++ rest') =
              frame ++ (frames.flatten ++ rest) := by
            rw [← hstream, hsplits'.stream_eq, List.flatten_cons, List.append_assoc]
          rcases List.append_inj hboth hfirst with ⟨hsame, hrest⟩
          have htail := hsplits'.tail
          rw [hrest] at htail
          rcases ih hsplits.tail htail with ⟨hframes, hleft⟩
          exact ⟨by rw [hsame, hframes], hleft⟩

end Framing
