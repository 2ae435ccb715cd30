import Mathlib.Data.List.DropRight
import Mathlib.Data.List.Infix
import Phrasebook.Text.Blank

namespace Phrasebook.Text

variable {c : Char} {text : List Char}

structure Unpadded (text : List Char) : Prop where
  head : ∀ c ∈ text.head?, isBlank c = false
  last : ∀ c ∈ text.getLast?, isBlank c = false

theorem trimmed_eq_rdropWhile (text : List Char) :
    trimmed text = (text.dropWhile isBlank).rdropWhile isBlank :=
  rfl

theorem unpadded_trimmed (text : List Char) : Unpadded (trimmed text) where
  head := by
    intro c hc
    rw [trimmed_eq_rdropWhile] at hc
    have ⟨rest, ht⟩ := List.rdropWhile_prefix isBlank (l := text.dropWhile isBlank)
    have hd : c ∈ (text.dropWhile isBlank).head? := by
      rw [← ht, List.head?_append, Option.mem_def.1 hc]
      rfl
    have hn := List.head?_dropWhile_not isBlank text
    rw [Option.mem_def.1 hd] at hn
    exact hn
  last := by
    intro c hc
    rw [trimmed_eq_rdropWhile] at hc
    obtain ⟨hne, rfl⟩ := List.mem_getLast?_eq_getLast hc
    simpa using List.rdropWhile_last_not isBlank _ hne

theorem Unpadded.trimmed_eq (h : Unpadded text) : trimmed text = text := by
  have hd : text.dropWhile isBlank = text := by
    refine List.dropWhile_eq_self_iff.2 fun hl => ?_
    simp [h.head _ (List.head?_eq_getElem? ▸ List.getElem?_eq_getElem hl)]
  have hr : text.rdropWhile isBlank = text := by
    refine List.rdropWhile_eq_self_iff.2 fun hl => ?_
    simp [h.last _ (List.getLast?_eq_getLast_of_ne_nil hl)]
  rw [trimmed_eq_rdropWhile, hd, hr]

theorem trimmed_eq_self_iff : trimmed text = text ↔ Unpadded text :=
  ⟨fun h => h ▸ unpadded_trimmed text, Unpadded.trimmed_eq⟩

theorem trimmed_eq_self (h : ∀ c ∈ text, isBlank c = false) : trimmed text = text :=
  trimmed_eq_self_iff.2
    ⟨fun c hc => h c (List.mem_of_mem_head? hc), fun c hc => h c (List.mem_of_mem_getLast? hc)⟩

theorem mem_dropWhile {p : Char → Bool} (hc : c ∈ text) (hp : p c = false) :
    c ∈ text.dropWhile p := by
  rw [← List.takeWhile_append_dropWhile (p := p) (l := text)] at hc
  rcases List.mem_append.1 hc with hc | hc
  case inl => exact absurd (List.mem_takeWhile_imp hc) (by simp [hp])
  case inr => exact hc

theorem mem_trimmed (hc : c ∈ text) (hb : isBlank c = false) : c ∈ trimmed text :=
  List.mem_reverse.2 (mem_dropWhile (List.mem_reverse.2 (mem_dropWhile hc hb)) hb)

theorem trimmed_eq_nil_iff : trimmed text = [] ↔ ∀ c ∈ text, isBlank c := by
  constructor
  case mp =>
    intro h c hc
    by_contra hb
    have hm := mem_trimmed hc (by simpa using hb)
    simp [h] at hm
  case mpr =>
    intro h
    rw [trimmed_eq_rdropWhile, List.dropWhile_eq_nil_iff.2 h, List.rdropWhile_nil]

theorem trimmed_subset (text : List Char) : trimmed text ⊆ text := by
  rw [trimmed_eq_rdropWhile]
  exact List.Subset.trans (List.rdropWhile_prefix isBlank _).subset
    (List.dropWhile_suffix isBlank).subset

theorem trimmed_map {f : Char → Char} (hf : ∀ c, isBlank (f c) = isBlank c) (text : List Char) :
    trimmed (text.map f) = (trimmed text).map f := by
  have hb : isBlank ∘ f = isBlank := funext hf
  simp only [trimmed, trimmedOf, List.dropWhile_map, ← List.map_reverse, hb]

end Phrasebook.Text
