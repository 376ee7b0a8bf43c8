/-
TaskList.Proofs.Line.Appended — a line with a tag put in at its end.

* `Text.withTag` — the tag at the end, behind a space that may be there
  already.
* `LaidOut.append` — behind the parts of the line stand a space and the tag. No
  other part is changed: a tag at the end does not reach into what is in front
  of it, and no mention takes it in behind the space.
-/
import TaskList.Proofs.Line.Changed

namespace TaskList

/-- The text with a tag at its end, behind a space. -/
def Text.withTag (t tag : Text) : Text :=
  t ++ ((if t.getLast? = some ' ' then [] else [' ']) ++ tag)

namespace Line

/-- The parts without a space at their end. -/
def IsBase (base parts : List Part) : Prop := parts = base ∨ parts = base ++ [.plain ' ']

section Append

variable {settings : Settings} {unit : Option IndentUnit} {target : Day} {raw : Text}
  {parts base : List Part}

theorem IsBase.leftover (h : IsBase base parts) (token : Token) (field : Field) :
    Text.squeeze (leftoverOf (base ++ [.plain ' ', .taken token field])) =
      Text.squeeze (leftoverOf parts) := by
  have hspace : leftoverOf [.plain ' ', .taken token field] = [' '] := rfl
  rw [leftoverOf_append, hspace]
  rcases h with rfl | rfl
  · exact Text.squeeze_append_blank (by decide) _
  · rw [leftoverOf_append]
    rfl

theorem Laid.exists_isBase {before : Option Char} {used : List Key}
    (h : Laid target before used parts []) :
    ∃ base after, IsBase base parts ∧ Laid target before used base after ∧
      usedBehind used base = usedBehind used parts ∧
      textOf parts ++ (if (textOf parts).getLast? = some ' ' then [] else [' ']) =
        textOf base ++ [' '] := by
  by_cases hlast : (textOf parts).getLast? = some ' '
  · obtain ⟨base, rfl⟩ := h.exists_base hlast
    refine ⟨base, _, .inr rfl, (laid_append.mp h).1, ?_, ?_⟩
    · rw [usedBehind_append]
      rfl
    · rw [if_pos hlast, List.append_nil, textOf_append]
      rfl
  · exact ⟨parts, [], .inl rfl, h, rfl, by rw [if_neg hlast]⟩

/-- Parts with a tag at their end are written as the text with the tag. -/
theorem textOf_put
    (htext : textOf parts ++ (if (textOf parts).getLast? = some ' ' then [] else [' ']) =
      textOf base ++ [' ']) (part : Part) :
    textOf (base ++ [.plain ' ', part]) = (textOf parts).withTag part.text := by
  rw [Text.withTag, ← List.append_assoc, htext, textOf_append, List.append_assoc, textOf_cons,
    textOf_cons, textOf_nil, List.append_nil]
  rfl

/-- How a line with a tag at its end is written, when its parts end as it does. -/
theorem LaidOut.withTag_eq (h : LaidOut settings unit target raw parts)
    (hlast : raw.getLast? = some ' ' ↔ (textOf parts).getLast? = some ' ')
    (htext : textOf parts ++ (if (textOf parts).getLast? = some ' ' then [] else [' ']) =
      textOf base ++ [' ']) (token : Token) (field : Field) :
    textOf (base ++ [.plain ' ', .taken token field]) = textOf parts ++
        ((if raw.getLast? = some ' ' then [] else [' ']) ++ token.text) ∧
      raw.withTag token.text = raw.take (startOf settings unit raw) ++
        textOf (base ++ [.plain ' ', .taken token field]) := by
  have hnew : textOf (base ++ [.plain ' ', .taken token field]) = textOf parts ++
      ((if raw.getLast? = some ' ' then [] else [' ']) ++ token.text) := by
    simp only [hlast]
    rw [← List.append_assoc, htext, textOf_append, List.append_assoc]
    simp [Part.text]
  refine ⟨hnew, ?_⟩
  rw [hnew, ← List.append_assoc, h.raw_eq, Text.withTag]

/-- **A line with a tag at its end** is laid out in the parts that it had, and
behind them a space and the tag. -/
theorem LaidOut.append (h : LaidOut settings unit target raw parts)
    (hmark : '{' ∉ settings.doneMark) (hbrace : '{' ∈ textOf parts) {key : Text}
    {value : Option Text} {field : Field} (hshape : (Token.tag key value).IsShaped)
    (hfield : field? target (usedBehind [] parts) ⟨⟨0, 0⟩, .tag key value⟩ =
      .ok (some (field, field.key?.toList))) :
    ∃ base, IsBase base parts ∧
      Relaid settings unit target raw (raw.withTag (Token.tag key value).text)
        (base ++ [.plain ' ', .taken (.tag key value) field]) := by
  obtain ⟨base, after, hbase, hlaid, hused, htext⟩ := h.laid.exists_isBase
  have hlast : raw.getLast? = (textOf parts).getLast? := by
    have hne : textOf parts ≠ [] := List.ne_nil_of_mem hbrace
    rw [← h.raw_eq, List.getLast?_append, List.getLast?_eq_some_getLast hne, Option.some_or]
  obtain ⟨hnew, hraw⟩ := h.withTag_eq (by rw [hlast]) htext (.tag key value) field
  have hsame : Text.SameToBrace (textOf parts)
      (textOf (base ++ [.plain ' ', .taken (.tag key value) field])) := by
    obtain ⟨u, v, huv⟩ := List.append_of_mem hbrace
    exact ⟨u, v, _, huv, by rw [hnew, huv, List.append_assoc, List.cons_append]⟩
  rw [hraw]
  exact ⟨base, hbase, h.changed hmark hsame (hlaid.append hshape (by rwa [hused]))⟩

end Append

end Line

end TaskList
