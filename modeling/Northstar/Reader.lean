import Mathlib.Data.List.Basic

/-! Readers of a stream that arrives in pieces. A head takes one item off the bytes held, asks
for more, or gives up; it never changes its mind when more bytes arrive. What such a reader
takes off a stream then does not depend on how the stream was cut. -/
namespace Northstar

inductive Head (α β : Type) where
  | incomplete
  | refused
  | item (value : β) (rest : List α)

structure Reader (α β : Type) where
  head : List α → Head α β
  shorter : ∀ {buf value rest}, head buf = .item value rest → rest.length < buf.length
  keeps : ∀ {buf value rest} more, head buf = .item value rest → head (buf ++ more) = .item value (rest ++ more)
  refuses : ∀ {buf} more, head buf = .refused → head (buf ++ more) = .refused

structure Taken (α β : Type) where
  items : List β
  left : List α
  refused : Bool

namespace Reader

variable {α β : Type} (reader : Reader α β)

def takeFrom : Nat → List α → Taken α β
  | 0, buf => ⟨[],buf,false⟩
  | n + 1, buf => match reader.head buf with
      | .incomplete => ⟨[],buf,false⟩
      | .refused => ⟨[],buf,true⟩
      | .item value rest =>
          let later := takeFrom n rest
          ⟨value :: later.items,later.left,later.refused⟩

/- All the items a buffer holds; every item is shorter than what it is taken off. -/
def take (buf : List α) : Taken α β := reader.takeFrom (buf.length + 1) buf

/- The items each piece of the stream completes. -/
def batches : List α → List (List α) → List (List β)
  | _, [] => []
  | held, piece :: later =>
      let taken := reader.take (held ++ piece)
      taken.items :: if taken.refused then [] else batches taken.left later

theorem takeEnough {n m : Nat} {buf : List α} (first : buf.length < n) (second : buf.length < m) :
    reader.takeFrom n buf = reader.takeFrom m buf := by
  induction n generalizing m buf with
  | zero => omega
  | succ n ih =>
    cases m with
    | zero => omega
    | succ m =>
      unfold takeFrom
      cases here : reader.head buf with
      | incomplete => rfl
      | refused => rfl
      | item value rest =>
        have less := reader.shorter here
        dsimp only
        rw [ih (m := m) (by omega) (by omega)]

theorem takeIncomplete {buf : List α} (here : reader.head buf = .incomplete) : reader.take buf = ⟨[],buf,false⟩ := by
  unfold take takeFrom
  rw [here]

theorem takeRefused {buf : List α} (here : reader.head buf = .refused) : reader.take buf = ⟨[],buf,true⟩ := by
  unfold take takeFrom
  rw [here]

theorem takeItem {buf rest : List α} {value : β} (here : reader.head buf = .item value rest) :
    reader.take buf = ⟨value :: (reader.take rest).items,(reader.take rest).left,(reader.take rest).refused⟩ := by
  have less := reader.shorter here
  have same := reader.takeEnough (m := rest.length + 1) less (by omega)
  unfold take
  rw [takeFrom,here]
  dsimp only
  rw [same]

/- What a buffer holds stays what a longer one begins with. -/
theorem takeAppend (n : Nat) (buf more : List α) (small : buf.length < n) :
    (reader.take (buf ++ more)).items = (reader.take buf).items ++
      if (reader.take buf).refused then [] else (reader.take ((reader.take buf).left ++ more)).items := by
  induction n generalizing buf with
  | zero => omega
  | succ n ih =>
    cases here : reader.head buf with
    | incomplete =>
      rw [reader.takeIncomplete here]
      exact (List.nil_append _).symm
    | refused =>
      rw [reader.takeRefused here,reader.takeRefused (reader.refuses more here)]
      rfl
    | item value rest =>
      have less := reader.shorter here
      rw [reader.takeItem here,reader.takeItem (reader.keeps more here)]
      exact congrArg (value :: ·) (ih rest (by omega))

/- What is left over waits for more. -/
theorem takeLeft (n : Nat) (buf : List α) (small : buf.length < n) (open_ : (reader.take buf).refused = false) :
    reader.take (reader.take buf).left = ⟨[],(reader.take buf).left,false⟩ := by
  induction n generalizing buf with
  | zero => omega
  | succ n ih =>
    cases here : reader.head buf with
    | incomplete =>
      rw [reader.takeIncomplete here]
      exact reader.takeIncomplete here
    | refused =>
      rw [reader.takeRefused here] at open_
      contradiction
    | item value rest =>
      have less := reader.shorter here
      rw [reader.takeItem here] at open_ ⊢
      exact ih rest (by omega) open_

theorem batchesFlatten (held : List α) (pieces : List (List α)) (waits : reader.take held = ⟨[],held,false⟩) :
    (reader.batches held pieces).flatten = (reader.take (held ++ pieces.flatten)).items := by
  induction pieces generalizing held with
  | nil =>
    rw [List.flatten_nil,List.append_nil,waits]
    rfl
  | cons piece later ih =>
    unfold batches
    dsimp only
    rw [List.flatten_cons,List.flatten_cons,← List.append_assoc,
      reader.takeAppend _ (held ++ piece) later.flatten (Nat.lt_succ_self _)]
    congr 1
    cases open_ : (reader.take (held ++ piece)).refused with
    | true => rfl
    | false => exact ih _ (reader.takeLeft _ _ (Nat.lt_succ_self _) open_)

end Reader
end Northstar
