import UpdateProtocol.Markup.Schema

namespace UpdateProtocol

theorem ok_of_bind {ε α β : Type} {x : Except ε α} {f : α → Except ε β} {b : β}
    (h : x >>= f = .ok b) : ∃ a, x = .ok a ∧ f a = .ok b := by
  cases x with
  | error e => cases h
  | ok a => exact ⟨a, rfl, h⟩

theorem ok_of_map {ε α β : Type} {x : Except ε α} {f : α → β} {b : β} (h : x.map f = .ok b) :
    ∃ a, x = .ok a ∧ f a = b := by
  cases x with
  | error e => cases h
  | ok a =>
    cases h
    exact ⟨a, rfl, rfl⟩

namespace Markup

variable {σ τ α : Type} {P : σ → Prop}

def TextReader.Keeps (P : σ → Prop) (read : TextReader σ) : Prop :=
  ∀ raw s t, P s → read raw s = .ok t → P t

def ElementReader.Keeps (P : σ → Prop) (read : ElementReader σ) : Prop :=
  ∀ scope tag children s t, P s → read scope tag children s = .ok t → P t

def Child.read : Child σ → ElementReader σ
  | .one read | .optional read | .many _ read => read

structure Field.Keeps (P : σ → Prop) (f : Field σ) : Prop where
  ofValue : f.ofValue.Keeps P
  ofText : f.ofText.Keeps P

@[simp] theorem Field.read_child (f : Field σ) : f.child.read = f.read := by
  unfold Field.child
  split <;> rfl

theorem Field.Keeps.read {f : Field σ} (h : f.Keeps P) : f.read.Keeps P := by
  intro scope tag children s t hs ht
  obtain ⟨text, -, ht⟩ := ok_of_bind ht
  exact h.ofText text s t hs ht

def Reading.Sound (P : σ → Prop) (r : Reading σ) : Prop :=
  P r.record ∧ ∀ l, r.list = some l → l.read.Keeps P

theorem Reading.Sound.of_none {s : σ} (hs : P s) (seen : List String) :
    Reading.Sound P { record := s, seen, list := none } := by
  refine ⟨hs, ?_⟩
  intro l hl
  cases hl

structure Schema.Keeps (P : σ → Prop) (sch : Schema σ) : Prop where
  fresh : P sch.fresh
  attributes : ∀ f ∈ sch.attributes, f.2.Keeps P
  children : ∀ c ∈ sch.children, c.2.read.Keeps P
  inOrder : ∀ s, P s → P (sch.inOrder s)

namespace Schema

variable {sch : Schema σ}

theorem keeps_field {name : String} {x : Scalar α} {put : α → σ → σ}
    (h : ∀ v s, P s → P (put v s)) : (field name x put).2.Keeps P where
  ofValue := by
    intro raw s t hs ht
    obtain ⟨v, -, rfl⟩ := ok_of_map ht
    exact h v s hs
  ofText := by
    intro text s t hs ht
    obtain ⟨v, -, rfl⟩ := ok_of_map ht
    exact h v s hs

theorem keeps_keep {Q : τ → Prop} {sub : Schema τ} {put : τ → σ → σ}
    (hsub : ∀ {scope tag children v}, sub.read scope tag children = .ok v → Q v)
    (h : ∀ v s, Q v → P s → P (put v s)) : ElementReader.Keeps P (keep sub put) := by
  intro scope tag children s t hs ht
  obtain ⟨v, hv, rfl⟩ := ok_of_map ht
  exact h v s (hsub hv) hs

theorem mem_of_lookup_eq_some {β : Type} {l : List (String × β)} {name : String} {b : β}
    (h : l.lookup name = some b) : (name, b) ∈ l := by
  obtain ⟨before, after, rfl, -⟩ := List.lookup_eq_some_iff.1 h
  simp

theorem lookup_map {β γ : Type} (g : β → γ) (l : List (String × β)) (name : String) :
    (l.map fun f => (f.1, g f.2)).lookup name = (l.lookup name).map g := by
  induction l with
  | nil => rfl
  | cons f l ih =>
    rw [List.map_cons, List.lookup_cons, List.lookup_cons, ih]
    split <;> rfl

theorem child?_eq (sch : Schema σ) (name : String) :
    sch.child? name =
      (sch.children.lookup name).or ((sch.attributes.lookup name).map Field.child) := by
  rw [child?, fields, List.lookup_append, lookup_map]

theorem child?_of_child {name : String} {child : Child σ}
    (h : sch.children.lookup name = some child) : sch.child? name = some child := by
  rw [child?_eq, h, Option.some_or]

theorem child?_of_not_attribute {name : String} (h : sch.attributes.lookup name = none) :
    sch.child? name = sch.children.lookup name := by
  rw [child?_eq, h, Option.map_none, Option.or_none]

theorem child?_of_not_child {name : String} (h : sch.children.lookup name = none) :
    sch.child? name = (sch.attributes.lookup name).map Field.child := by
  rw [child?_eq, h, Option.none_or]

theorem forall_mem_fields {Q : String → Child σ → Prop}
    (hchildren : ∀ c ∈ sch.children, Q c.1 c.2)
    (hattributes : ∀ f ∈ sch.attributes, Q f.1 f.2.child) : ∀ c ∈ sch.fields, Q c.1 c.2 := by
  intro c hc
  obtain hc | hc := List.mem_append.1 hc
  · exact hchildren c hc
  · obtain ⟨f, hf, rfl⟩ := List.mem_map.1 hc
    exact hattributes f hf

theorem Keeps.fields (hk : sch.Keeps P) : ∀ c ∈ sch.fields, c.2.read.Keeps P :=
  forall_mem_fields (Q := fun _ c => c.read.Keeps P) hk.children fun f hf => by
    rw [f.2.read_child]
    exact (hk.attributes f hf).read

theorem readAttribute_sound (hk : sch.Keeps P) {r r' : Reading σ} {a : Attribute}
    (hr : r.Sound P) (h : sch.readAttribute r a = .ok r') : r'.Sound P := by
  simp only [readAttribute] at h
  split at h
  · cases h
    exact hr
  · rename_i f hf
    split at h
    · cases h
    · obtain ⟨s, hs, h⟩ := ok_of_bind h
      cases h
      exact ⟨(hk.attributes _ (mem_of_lookup_eq_some hf)).ofValue _ _ _ hr.1 hs, hr.2⟩

theorem foldlM_readAttribute_sound (hk : sch.Keeps P) {as : List Attribute} {r r' : Reading σ}
    (hr : r.Sound P) (h : as.foldlM sch.readAttribute r = .ok r') : r'.Sound P := by
  induction as generalizing r with
  | nil =>
    cases h
    exact hr
  | cons a as ih =>
    rw [List.foldlM_cons] at h
    obtain ⟨s, hs, h⟩ := ok_of_bind h
    exact ih (readAttribute_sound hk hr hs) h

theorem readAttributes_sound (hk : sch.Keeps P) {r r' : Reading σ} {text : List Char}
    (hr : r.Sound P) (h : sch.readAttributes r text = .ok r') : r'.Sound P := by
  obtain ⟨s, hs, h⟩ := ok_of_bind h
  split at h
  · cases h
    exact foldlM_readAttribute_sound hk hr hs
  · cases h

theorem readField_sound (hk : sch.Keeps P) {scope : Scope} {parent tag : Tag} {children : Content}
    {r r' : Reading σ} (hr : r.Sound P)
    (h : sch.readField scope parent tag children r = .ok r') : r'.Sound P := by
  simp only [readField] at h
  split at h
  · obtain ⟨_, -, h⟩ := ok_of_bind h
    cases h
    exact .of_none hr.1 _
  · rename_i child hchild
    have hkeeps := hk.fields _ (mem_of_lookup_eq_some hchild)
    split at h
    · cases h
    · cases child with
      | one read =>
        obtain ⟨s, hs, h⟩ := ok_of_bind h
        cases h
        exact .of_none (hkeeps _ _ _ _ _ hr.1 hs) _
      | optional read =>
        dsimp only at h
        split at h
        · obtain ⟨_, -, h⟩ := ok_of_bind h
          cases h
          exact .of_none hr.1 _
        · obtain ⟨s, hs, h⟩ := ok_of_bind h
          cases h
          exact .of_none (hkeeps _ _ _ _ _ hr.1 hs) _
      | many item read =>
        obtain ⟨s, hs, h⟩ := ok_of_bind h
        cases h
        refine ⟨hkeeps _ _ _ _ _ hr.1 hs, ?_⟩
        intro l hl
        cases hl
        exact hkeeps

theorem readChild_sound (hk : sch.Keeps P) {scope : Scope} {parent tag : Tag} {children : Content}
    {r r' : Reading σ} (hr : r.Sound P)
    (h : sch.readChild scope parent tag children r = .ok r') : r'.Sound P := by
  simp only [readChild] at h
  split at h
  · rename_i l hl
    split at h
    · obtain ⟨s, hs, h⟩ := ok_of_bind h
      cases h
      exact ⟨hr.2 l hl _ _ _ _ _ hr.1 hs, hr.2⟩
    · exact readField_sound hk hr h
  · exact readField_sound hk hr h

theorem readText_eq {r r' : Reading σ} {run : List Piece} (h : readText r run = .ok r') :
    r' = r := by
  unfold readText at h
  split at h
  · cases h
  · cases h
  · cases h
    rfl

theorem readContent_induction {scope : Scope} {parent : Tag} {r' : Reading σ}
    {motive : Content → Reading σ → Prop} (closed : motive .closed r')
    (text : ∀ {run rest r}, motive rest r → motive (.text run rest) r)
    (element : ∀ {tag children rest r s}, sch.readChild scope parent tag children r = .ok s →
      motive rest s → motive (.element tag children rest) r)
    {c : Content} {r : Reading σ} (h : sch.readContent scope parent c r = .ok r') :
    motive c r := by
  induction c generalizing r with
  | closed =>
    cases h
    exact closed
  | broken => cases h
  | text run rest ih =>
    rw [readContent] at h
    split at h
    · cases h
    · rename_i s hs
      obtain rfl := readText_eq hs
      exact text (ih h)
  | element tag children rest _ ih =>
    rw [readContent] at h
    split at h
    · cases h
    · rename_i s hs
      exact element hs (ih h)

theorem readContent_sound (hk : sch.Keeps P) {scope : Scope} {parent : Tag} {c : Content}
    {r r' : Reading σ} (hr : r.Sound P)
    (h : sch.readContent scope parent c r = .ok r') : r'.Sound P := by
  refine readContent_induction (motive := fun _ r => r.Sound P → r'.Sound P) ?closed ?text
    ?element h hr
  case closed => exact id
  case text => exact fun ih => ih
  case element =>
    intro tag children rest r s hs ih hr
    exact ih (readChild_sound hk hr hs)

theorem read_keeps (hk : sch.Keeps P) {scope : Scope} {tag : Tag} {children : Content} {v : σ}
    (h : sch.read scope tag children = .ok v) : P v := by
  obtain ⟨r, hattributes, h⟩ := ok_of_bind h
  obtain ⟨r', hcontent, h⟩ := ok_of_bind h
  have hr : r.Sound P := readAttributes_sound hk (.of_none hk.fresh _) hattributes
  split at h
  · cases h
  · cases h
    exact hk.inOrder _ (readContent_sound hk hr hcontent).1

theorem readDocument_keeps (hk : sch.Keeps P) {item : String} {c : Content} {v : σ}
    (h : sch.readDocument item c = .ok v) : P v := by
  unfold readDocument at h
  split at h
  · split at h <;> cases h
  · exact read_keeps hk h
  · cases h

end Schema

end Markup

end UpdateProtocol
