import Calligraph.Syntax.Render

/-!
# Types without their lifetimes

A lifetime can stand in many places of a type, and to any depth. Without its lifetimes a type has
the same text (`Ty.render_withoutLifetimes`), so the text of a routine does not show them
(`Signature.renderParams_withoutLifetimes`).
-/

namespace Calligraph

/-- A name with those of the `written` arguments that are left. If none is left the brackets are
gone too. -/
def Segment.ofLeft (name : String) (written left : List GenericArg) : Segment :=
  if left.isEmpty && !written.isEmpty then .plain name else .angled name left

mutual

/-- The type without the lifetimes in it. The binders of `for` go with them, and so do the bounds of
`use`, which say what lifetimes a type captures. -/
def Ty.withoutLifetimes : Ty → Ty
  | .path p => .path p.withoutLifetimes
  | .reference _ mutable target => .reference none mutable target.withoutLifetimes
  | .pointer mutable target => .pointer mutable target.withoutLifetimes
  | .slice element => .slice element.withoutLifetimes
  | .array element length => .array element.withoutLifetimes length
  | .tuple elements => .tuple (Ty.allWithoutLifetimes elements)
  | .paren inner => .paren inner.withoutLifetimes
  | .implTrait bounds => .implTrait (Bound.allWithoutLifetimes bounds)
  | .dynTrait bounds => .dynTrait (Bound.allWithoutLifetimes bounds)
  | .function _ params output =>
    .function [] (Ty.allWithoutLifetimes params) (Ty.outputWithoutLifetimes output)
  | .never => .never
  | .infer => .infer
  | .expansion path => .expansion path
  | .silent => .silent

def Ty.allWithoutLifetimes : List Ty → List Ty
  | [] => []
  | t :: rest => t.withoutLifetimes :: Ty.allWithoutLifetimes rest

def Ty.outputWithoutLifetimes : Option Ty → Option Ty
  | none => none
  | some t => some t.withoutLifetimes

def Path.withoutLifetimes : Path → Path
  | .plain rooted segments => .plain rooted (Segment.allWithoutLifetimes segments)
  | .qualified self trait rest =>
    .qualified self.withoutLifetimes (Segment.allWithoutLifetimes trait)
      (Segment.allWithoutLifetimes rest)

def Segment.withoutLifetimes : Segment → Segment
  | .plain name => .plain name
  | .angled name args => .ofLeft name args (GenericArg.allWithoutLifetimes args)
  | .arrow name inputs output =>
    .arrow name (Ty.allWithoutLifetimes inputs) (Ty.outputWithoutLifetimes output)

def Segment.allWithoutLifetimes : List Segment → List Segment
  | [] => []
  | s :: rest => s.withoutLifetimes :: Segment.allWithoutLifetimes rest

def GenericArg.withoutLifetimes : GenericArg → Option GenericArg
  | .lifetime _ => none
  | .type ty => some (.type ty.withoutLifetimes)
  | .value text => some (.value text)
  | .assocType name ty => some (.assocType name ty.withoutLifetimes)
  | .assocValue name text => some (.assocValue name text)
  | .constraint name bounds => some (.constraint name (Bound.allWithoutLifetimes bounds))

def GenericArg.allWithoutLifetimes : List GenericArg → List GenericArg
  | [] => []
  | a :: rest => a.withoutLifetimes.toList ++ GenericArg.allWithoutLifetimes rest

def Bound.withoutLifetimes : Bound → Option Bound
  | .trait maybe _ path => some (.trait maybe [] path.withoutLifetimes)
  | .lifetime _ => none
  | .capture _ => none
  | .silent => some .silent

def Bound.allWithoutLifetimes : List Bound → List Bound
  | [] => []
  | b :: rest => b.withoutLifetimes.toList ++ Bound.allWithoutLifetimes rest

end

mutual

/-- A lifetime is written somewhere in the type. A bound of `use` counts whatever it names. -/
def Ty.hasLifetimes : Ty → Bool
  | .path p => p.hasLifetimes
  | .reference life _ target => life.isSome || target.hasLifetimes
  | .pointer _ target => target.hasLifetimes
  | .slice element => element.hasLifetimes
  | .array element _ => element.hasLifetimes
  | .tuple elements => Ty.anyHasLifetimes elements
  | .paren inner => inner.hasLifetimes
  | .implTrait bounds => Bound.anyHasLifetimes bounds
  | .dynTrait bounds => Bound.anyHasLifetimes bounds
  | .function binder params output =>
    !binder.isEmpty || (Ty.anyHasLifetimes params || Ty.outputHasLifetimes output)
  | .never => false
  | .infer => false
  | .expansion _ => false
  | .silent => false

def Ty.anyHasLifetimes : List Ty → Bool
  | [] => false
  | t :: rest => t.hasLifetimes || Ty.anyHasLifetimes rest

def Ty.outputHasLifetimes : Option Ty → Bool
  | none => false
  | some t => t.hasLifetimes

def Path.hasLifetimes : Path → Bool
  | .plain _ segments => Segment.anyHasLifetimes segments
  | .qualified self trait rest =>
    self.hasLifetimes || (Segment.anyHasLifetimes trait || Segment.anyHasLifetimes rest)

def Segment.hasLifetimes : Segment → Bool
  | .plain _ => false
  | .angled _ args => GenericArg.anyHasLifetimes args
  | .arrow _ inputs output => Ty.anyHasLifetimes inputs || Ty.outputHasLifetimes output

def Segment.anyHasLifetimes : List Segment → Bool
  | [] => false
  | s :: rest => s.hasLifetimes || Segment.anyHasLifetimes rest

def GenericArg.hasLifetimes : GenericArg → Bool
  | .lifetime _ => true
  | .type ty => ty.hasLifetimes
  | .value _ => false
  | .assocType _ ty => ty.hasLifetimes
  | .assocValue _ _ => false
  | .constraint _ bounds => Bound.anyHasLifetimes bounds

def GenericArg.anyHasLifetimes : List GenericArg → Bool
  | [] => false
  | a :: rest => a.hasLifetimes || GenericArg.anyHasLifetimes rest

def Bound.hasLifetimes : Bound → Bool
  | .trait _ binder path => !binder.isEmpty || path.hasLifetimes
  | .lifetime _ => true
  | .capture _ => true
  | .silent => false

def Bound.anyHasLifetimes : List Bound → Bool
  | [] => false
  | b :: rest => b.hasLifetimes || Bound.anyHasLifetimes rest

end

/-! ## The text -/

/-- Brackets with nothing in them are not shown. -/
theorem Segment.render_ofLeft (name : String) (written left : List GenericArg) :
    (Segment.ofLeft name written left).render =
      name ++ Calligraph.angled (GenericArg.renderAll left) := by
  unfold Segment.ofLeft
  split
  · next h =>
    rw [Bool.and_eq_true, List.isEmpty_iff] at h
    rw [h.1]
    exact (String.append_empty).symm
  · rfl

mutual

/-- **A type without its lifetimes has the same text.** -/
theorem Ty.render_withoutLifetimes : (t : Ty) → t.withoutLifetimes.render = t.render
  | .path p => p.render_withoutLifetimes
  | .reference _ mutable target =>
    congrArg ((if mutable then "&mut " else "&") ++ ·) target.render_withoutLifetimes
  | .pointer mutable target =>
    congrArg ((if mutable then "*mut " else "*const ") ++ ·) target.render_withoutLifetimes
  | .slice element => congrArg ("[" ++ · ++ "]") element.render_withoutLifetimes
  | .array element length =>
    congrArg ("[" ++ · ++ "; " ++ length.render ++ "]") element.render_withoutLifetimes
  -- a tuple of one has a comma of its own; taking lifetimes out changes no number of elements
  | .tuple [] => rfl
  | .tuple [element] => congrArg ("(" ++ · ++ ",)") element.render_withoutLifetimes
  | .tuple (first :: second :: rest) =>
    congrArg ("(" ++ ", ".intercalate · ++ ")")
      (Ty.renderAll_allWithoutLifetimes (first :: second :: rest))
  | .paren inner => congrArg ("(" ++ · ++ ")") inner.render_withoutLifetimes
  | .implTrait bounds =>
    congrArg ("impl " ++ " + ".intercalate ·) (Bound.renderAll_allWithoutLifetimes bounds)
  | .dynTrait bounds =>
    congrArg ("dyn " ++ " + ".intercalate ·) (Bound.renderAll_allWithoutLifetimes bounds)
  | .function _ params output => by
    have hparams := Ty.renderAll_allWithoutLifetimes params
    have houtput := Ty.renderOutput_outputWithoutLifetimes output
    show "fn(" ++ ", ".intercalate (Ty.renderAll (Ty.allWithoutLifetimes params)) ++ ")" ++
      Ty.renderOutput (Ty.outputWithoutLifetimes output) = _
    rw [hparams, houtput]
    rfl
  | .never => rfl
  | .infer => rfl
  | .expansion _ => rfl
  | .silent => rfl

theorem Ty.renderAll_allWithoutLifetimes : (ts : List Ty) →
    Ty.renderAll (Ty.allWithoutLifetimes ts) = Ty.renderAll ts
  | [] => rfl
  | t :: rest =>
    List.cons_eq_cons.2 ⟨t.render_withoutLifetimes, Ty.renderAll_allWithoutLifetimes rest⟩

theorem Ty.renderOutput_outputWithoutLifetimes : (output : Option Ty) →
    Ty.renderOutput (Ty.outputWithoutLifetimes output) = Ty.renderOutput output
  | none => rfl
  | some t => congrArg (" -> " ++ ·) t.render_withoutLifetimes

theorem Path.render_withoutLifetimes : (p : Path) → p.withoutLifetimes.render = p.render
  | .plain rooted segments =>
    congrArg ((if rooted then "::" else "") ++ "::".intercalate ·)
      (Segment.renderAll_allWithoutLifetimes segments)
  | .qualified self [] rest => by
    have hself := self.render_withoutLifetimes
    have hrest := Segment.renderAll_allWithoutLifetimes rest
    show "<" ++ self.withoutLifetimes.render ++ ">::" ++
      "::".intercalate (Segment.renderAll (Segment.allWithoutLifetimes rest)) = _
    rw [hself, hrest]
    rfl
  | .qualified self (first :: others) rest => by
    have hself := self.render_withoutLifetimes
    have htrait := Segment.renderAll_allWithoutLifetimes (first :: others)
    have hrest := Segment.renderAll_allWithoutLifetimes rest
    show "<" ++ self.withoutLifetimes.render ++ " as " ++
      "::".intercalate (Segment.renderAll (Segment.allWithoutLifetimes (first :: others))) ++
      ">::" ++ "::".intercalate (Segment.renderAll (Segment.allWithoutLifetimes rest)) = _
    rw [hself, htrait, hrest]
    rfl

theorem Segment.render_withoutLifetimes : (s : Segment) → s.withoutLifetimes.render = s.render
  | .plain _ => rfl
  | .angled name args => by
    -- arguments that are all lifetimes have no text, and neither have brackets around nothing
    have hargs := GenericArg.renderAll_allWithoutLifetimes args
    show (Segment.ofLeft name args (GenericArg.allWithoutLifetimes args)).render = _
    rw [Segment.render_ofLeft, hargs]
    rfl
  | .arrow name inputs output => by
    have hinputs := Ty.renderAll_allWithoutLifetimes inputs
    have houtput := Ty.renderOutput_outputWithoutLifetimes output
    show name ++ "(" ++ ", ".intercalate (Ty.renderAll (Ty.allWithoutLifetimes inputs)) ++ ")" ++
      Ty.renderOutput (Ty.outputWithoutLifetimes output) = _
    rw [hinputs, houtput]
    rfl

theorem Segment.renderAll_allWithoutLifetimes : (ss : List Segment) →
    Segment.renderAll (Segment.allWithoutLifetimes ss) = Segment.renderAll ss
  | [] => rfl
  | s :: rest =>
    List.cons_eq_cons.2 ⟨s.render_withoutLifetimes, Segment.renderAll_allWithoutLifetimes rest⟩

theorem GenericArg.renderAll_allWithoutLifetimes : (args : List GenericArg) →
    GenericArg.renderAll (GenericArg.allWithoutLifetimes args) = GenericArg.renderAll args
  | [] => rfl
  | .lifetime _ :: rest => GenericArg.renderAll_allWithoutLifetimes rest
  | .type ty :: rest =>
    List.cons_eq_cons.2
      ⟨ty.render_withoutLifetimes, GenericArg.renderAll_allWithoutLifetimes rest⟩
  | .value text :: rest =>
    congrArg (text.render :: ·) (GenericArg.renderAll_allWithoutLifetimes rest)
  | .assocType name ty :: rest =>
    List.cons_eq_cons.2 ⟨congrArg (name ++ " = " ++ ·) ty.render_withoutLifetimes,
      GenericArg.renderAll_allWithoutLifetimes rest⟩
  | .assocValue name text :: rest =>
    congrArg ((name ++ " = " ++ text.render) :: ·) (GenericArg.renderAll_allWithoutLifetimes rest)
  | .constraint name bounds :: rest =>
    List.cons_eq_cons.2
      ⟨congrArg (name ++ ": " ++ " + ".intercalate ·) (Bound.renderAll_allWithoutLifetimes bounds),
        GenericArg.renderAll_allWithoutLifetimes rest⟩

theorem Bound.renderAll_allWithoutLifetimes : (bounds : List Bound) →
    Bound.renderAll (Bound.allWithoutLifetimes bounds) = Bound.renderAll bounds
  | [] => rfl
  | .trait maybe _ path :: rest =>
    List.cons_eq_cons.2
      ⟨congrArg ((if maybe then "?" else "") ++ ·) path.render_withoutLifetimes,
        Bound.renderAll_allWithoutLifetimes rest⟩
  | .lifetime _ :: rest => Bound.renderAll_allWithoutLifetimes rest
  | .capture _ :: rest => Bound.renderAll_allWithoutLifetimes rest
  | .silent :: rest => Bound.renderAll_allWithoutLifetimes rest

end

/-! ## What is left -/

theorem Segment.hasLifetimes_ofLeft (name : String) (written left : List GenericArg) :
    (Segment.ofLeft name written left).hasLifetimes = GenericArg.anyHasLifetimes left := by
  unfold Segment.ofLeft
  split
  · next h =>
    rw [Bool.and_eq_true, List.isEmpty_iff] at h
    rw [h.1]
    rfl
  · rfl

mutual

theorem Ty.hasLifetimes_withoutLifetimes : (t : Ty) → t.withoutLifetimes.hasLifetimes = false
  | .path p => p.hasLifetimes_withoutLifetimes
  | .reference _ _ target => target.hasLifetimes_withoutLifetimes
  | .pointer _ target => target.hasLifetimes_withoutLifetimes
  | .slice element => element.hasLifetimes_withoutLifetimes
  | .array element _ => element.hasLifetimes_withoutLifetimes
  | .tuple elements => Ty.anyHasLifetimes_allWithoutLifetimes elements
  | .paren inner => inner.hasLifetimes_withoutLifetimes
  | .implTrait bounds => Bound.anyHasLifetimes_allWithoutLifetimes bounds
  | .dynTrait bounds => Bound.anyHasLifetimes_allWithoutLifetimes bounds
  | .function _ params output => Bool.or_eq_false_iff.2
    ⟨rfl, Bool.or_eq_false_iff.2 ⟨Ty.anyHasLifetimes_allWithoutLifetimes params,
      Ty.outputHasLifetimes_outputWithoutLifetimes output⟩⟩
  | .never => rfl
  | .infer => rfl
  | .expansion _ => rfl
  | .silent => rfl

theorem Ty.anyHasLifetimes_allWithoutLifetimes : (ts : List Ty) →
    Ty.anyHasLifetimes (Ty.allWithoutLifetimes ts) = false
  | [] => rfl
  | t :: rest => Bool.or_eq_false_iff.2
    ⟨t.hasLifetimes_withoutLifetimes, Ty.anyHasLifetimes_allWithoutLifetimes rest⟩

theorem Ty.outputHasLifetimes_outputWithoutLifetimes : (output : Option Ty) →
    Ty.outputHasLifetimes (Ty.outputWithoutLifetimes output) = false
  | none => rfl
  | some t => t.hasLifetimes_withoutLifetimes

theorem Path.hasLifetimes_withoutLifetimes : (p : Path) → p.withoutLifetimes.hasLifetimes = false
  | .plain _ segments => Segment.anyHasLifetimes_allWithoutLifetimes segments
  | .qualified self trait rest => Bool.or_eq_false_iff.2
    ⟨self.hasLifetimes_withoutLifetimes, Bool.or_eq_false_iff.2
      ⟨Segment.anyHasLifetimes_allWithoutLifetimes trait,
        Segment.anyHasLifetimes_allWithoutLifetimes rest⟩⟩

theorem Segment.hasLifetimes_withoutLifetimes : (s : Segment) →
    s.withoutLifetimes.hasLifetimes = false
  | .plain _ => rfl
  | .angled name args =>
    (Segment.hasLifetimes_ofLeft name args _).trans
      (GenericArg.anyHasLifetimes_allWithoutLifetimes args)
  | .arrow _ inputs output => Bool.or_eq_false_iff.2
    ⟨Ty.anyHasLifetimes_allWithoutLifetimes inputs,
      Ty.outputHasLifetimes_outputWithoutLifetimes output⟩

theorem Segment.anyHasLifetimes_allWithoutLifetimes : (ss : List Segment) →
    Segment.anyHasLifetimes (Segment.allWithoutLifetimes ss) = false
  | [] => rfl
  | s :: rest => Bool.or_eq_false_iff.2
    ⟨s.hasLifetimes_withoutLifetimes, Segment.anyHasLifetimes_allWithoutLifetimes rest⟩

theorem GenericArg.anyHasLifetimes_allWithoutLifetimes : (args : List GenericArg) →
    GenericArg.anyHasLifetimes (GenericArg.allWithoutLifetimes args) = false
  | [] => rfl
  | .lifetime _ :: rest => GenericArg.anyHasLifetimes_allWithoutLifetimes rest
  | .type ty :: rest => Bool.or_eq_false_iff.2
    ⟨ty.hasLifetimes_withoutLifetimes, GenericArg.anyHasLifetimes_allWithoutLifetimes rest⟩
  | .value _ :: rest => GenericArg.anyHasLifetimes_allWithoutLifetimes rest
  | .assocType _ ty :: rest => Bool.or_eq_false_iff.2
    ⟨ty.hasLifetimes_withoutLifetimes, GenericArg.anyHasLifetimes_allWithoutLifetimes rest⟩
  | .assocValue _ _ :: rest => GenericArg.anyHasLifetimes_allWithoutLifetimes rest
  | .constraint _ bounds :: rest => Bool.or_eq_false_iff.2
    ⟨Bound.anyHasLifetimes_allWithoutLifetimes bounds,
      GenericArg.anyHasLifetimes_allWithoutLifetimes rest⟩

theorem Bound.anyHasLifetimes_allWithoutLifetimes : (bounds : List Bound) →
    Bound.anyHasLifetimes (Bound.allWithoutLifetimes bounds) = false
  | [] => rfl
  | .trait _ _ path :: rest => Bool.or_eq_false_iff.2
    ⟨path.hasLifetimes_withoutLifetimes, Bound.anyHasLifetimes_allWithoutLifetimes rest⟩
  | .lifetime _ :: rest => Bound.anyHasLifetimes_allWithoutLifetimes rest
  | .capture _ :: rest => Bound.anyHasLifetimes_allWithoutLifetimes rest
  | .silent :: rest => Bound.anyHasLifetimes_allWithoutLifetimes rest

end

/-- Brackets that were empty as written stay. -/
theorem Segment.ofLeft_self (name : String) (args : List GenericArg) :
    Segment.ofLeft name args args = .angled name args := by
  unfold Segment.ofLeft
  rw [Bool.and_not_self]
  rfl

mutual

theorem Ty.withoutLifetimes_eq_self : (t : Ty) → t.hasLifetimes = false → t.withoutLifetimes = t
  | .path p, h => congrArg Ty.path (p.withoutLifetimes_eq_self h)
  | .reference none mutable target, h =>
    congrArg (Ty.reference none mutable) (target.withoutLifetimes_eq_self h)
  | .pointer mutable target, h => congrArg (Ty.pointer mutable) (target.withoutLifetimes_eq_self h)
  | .slice element, h => congrArg Ty.slice (element.withoutLifetimes_eq_self h)
  | .array element length, h => congrArg (Ty.array · length) (element.withoutLifetimes_eq_self h)
  | .tuple elements, h => congrArg Ty.tuple (Ty.allWithoutLifetimes_eq_self elements h)
  | .paren inner, h => congrArg Ty.paren (inner.withoutLifetimes_eq_self h)
  | .implTrait bounds, h => congrArg Ty.implTrait (Bound.allWithoutLifetimes_eq_self bounds h)
  | .dynTrait bounds, h => congrArg Ty.dynTrait (Bound.allWithoutLifetimes_eq_self bounds h)
  | .function [] params output, h => by
    obtain ⟨-, hparts⟩ := Bool.or_eq_false_iff.1 h
    obtain ⟨hparams, houtput⟩ := Bool.or_eq_false_iff.1 hparts
    show Ty.function [] (Ty.allWithoutLifetimes params) (Ty.outputWithoutLifetimes output) = _
    rw [Ty.allWithoutLifetimes_eq_self params hparams,
      Ty.outputWithoutLifetimes_eq_self output houtput]
  | .never, _ => rfl
  | .infer, _ => rfl
  | .expansion _, _ => rfl
  | .silent, _ => rfl

theorem Ty.allWithoutLifetimes_eq_self : (ts : List Ty) → Ty.anyHasLifetimes ts = false →
    Ty.allWithoutLifetimes ts = ts
  | [], _ => rfl
  | t :: rest, h =>
    have ⟨ht, hrest⟩ := Bool.or_eq_false_iff.1 h
    List.cons_eq_cons.2
      ⟨t.withoutLifetimes_eq_self ht, Ty.allWithoutLifetimes_eq_self rest hrest⟩

theorem Ty.outputWithoutLifetimes_eq_self : (output : Option Ty) →
    Ty.outputHasLifetimes output = false → Ty.outputWithoutLifetimes output = output
  | none, _ => rfl
  | some t, h => congrArg some (t.withoutLifetimes_eq_self h)

theorem Path.withoutLifetimes_eq_self : (p : Path) → p.hasLifetimes = false →
    p.withoutLifetimes = p
  | .plain rooted segments, h =>
    congrArg (Path.plain rooted) (Segment.allWithoutLifetimes_eq_self segments h)
  | .qualified self trait rest, h => by
    obtain ⟨hself, hnames⟩ := Bool.or_eq_false_iff.1 h
    obtain ⟨htrait, hrest⟩ := Bool.or_eq_false_iff.1 hnames
    show Path.qualified self.withoutLifetimes (Segment.allWithoutLifetimes trait)
      (Segment.allWithoutLifetimes rest) = _
    rw [self.withoutLifetimes_eq_self hself, Segment.allWithoutLifetimes_eq_self trait htrait,
      Segment.allWithoutLifetimes_eq_self rest hrest]

theorem Segment.withoutLifetimes_eq_self : (s : Segment) → s.hasLifetimes = false →
    s.withoutLifetimes = s
  | .plain _, _ => rfl
  | .angled name args, h => by
    show Segment.ofLeft name args (GenericArg.allWithoutLifetimes args) = _
    rw [GenericArg.allWithoutLifetimes_eq_self args h]
    exact Segment.ofLeft_self name args
  | .arrow name inputs output, h => by
    obtain ⟨hinputs, houtput⟩ := Bool.or_eq_false_iff.1 h
    show Segment.arrow name (Ty.allWithoutLifetimes inputs) (Ty.outputWithoutLifetimes output) = _
    rw [Ty.allWithoutLifetimes_eq_self inputs hinputs,
      Ty.outputWithoutLifetimes_eq_self output houtput]

theorem Segment.allWithoutLifetimes_eq_self : (ss : List Segment) →
    Segment.anyHasLifetimes ss = false → Segment.allWithoutLifetimes ss = ss
  | [], _ => rfl
  | s :: rest, h =>
    have ⟨hs, hrest⟩ := Bool.or_eq_false_iff.1 h
    List.cons_eq_cons.2
      ⟨s.withoutLifetimes_eq_self hs, Segment.allWithoutLifetimes_eq_self rest hrest⟩

theorem GenericArg.allWithoutLifetimes_eq_self : (args : List GenericArg) →
    GenericArg.anyHasLifetimes args = false → GenericArg.allWithoutLifetimes args = args
  | [], _ => rfl
  | .type ty :: rest, h =>
    have ⟨hty, hrest⟩ := Bool.or_eq_false_iff.1 h
    List.cons_eq_cons.2 ⟨congrArg GenericArg.type (ty.withoutLifetimes_eq_self hty),
      GenericArg.allWithoutLifetimes_eq_self rest hrest⟩
  | .value text :: rest, h =>
    congrArg (GenericArg.value text :: ·) (GenericArg.allWithoutLifetimes_eq_self rest h)
  | .assocType name ty :: rest, h =>
    have ⟨hty, hrest⟩ := Bool.or_eq_false_iff.1 h
    List.cons_eq_cons.2 ⟨congrArg (GenericArg.assocType name) (ty.withoutLifetimes_eq_self hty),
      GenericArg.allWithoutLifetimes_eq_self rest hrest⟩
  | .assocValue name text :: rest, h =>
    congrArg (GenericArg.assocValue name text :: ·) (GenericArg.allWithoutLifetimes_eq_self rest h)
  | .constraint name bounds :: rest, h =>
    have ⟨hbounds, hrest⟩ := Bool.or_eq_false_iff.1 h
    List.cons_eq_cons.2
      ⟨congrArg (GenericArg.constraint name) (Bound.allWithoutLifetimes_eq_self bounds hbounds),
        GenericArg.allWithoutLifetimes_eq_self rest hrest⟩

theorem Bound.allWithoutLifetimes_eq_self : (bounds : List Bound) →
    Bound.anyHasLifetimes bounds = false → Bound.allWithoutLifetimes bounds = bounds
  | [], _ => rfl
  | .trait maybe [] path :: rest, h =>
    have ⟨hpath, hrest⟩ := Bool.or_eq_false_iff.1 h
    List.cons_eq_cons.2 ⟨congrArg (Bound.trait maybe []) (path.withoutLifetimes_eq_self hpath),
      Bound.allWithoutLifetimes_eq_self rest hrest⟩
  | .silent :: rest, h =>
    congrArg (Bound.silent :: ·) (Bound.allWithoutLifetimes_eq_self rest h)

end

/-- Nothing but lifetimes is taken out, and all of them are. -/
theorem Ty.withoutLifetimes_eq_self_iff (t : Ty) :
    t.withoutLifetimes = t ↔ t.hasLifetimes = false := by
  constructor
  · intro h
    rw [← h]
    exact t.hasLifetimes_withoutLifetimes
  · exact t.withoutLifetimes_eq_self

/-! ## Routines -/

mutual

/-- The pattern without the lifetimes of the types in it. -/
def Pat.withoutLifetimes : Pat → Pat
  | .name n sub => .name n (Pat.subWithoutLifetimes sub)
  | .typed pat ty => .typed pat.withoutLifetimes ty.withoutLifetimes
  | .inner pat => .inner pat.withoutLifetimes
  | .parts pats => .parts (Pat.allWithoutLifetimes pats)
  | .blank => .blank

def Pat.subWithoutLifetimes : Option Pat → Option Pat
  | none => none
  | some pat => some pat.withoutLifetimes

def Pat.allWithoutLifetimes : List Pat → List Pat
  | [] => []
  | pat :: rest => pat.withoutLifetimes :: Pat.allWithoutLifetimes rest

end

def Param.withoutLifetimes : Param → Param
  | .receiver => .receiver
  | .typed pat ty => .typed pat.withoutLifetimes ty.withoutLifetimes

def Generics.withoutLifetimes (generics : Generics) : Generics where
  params := generics.params.map fun (name, bounds) => (name, Bound.allWithoutLifetimes bounds)
  predicates := generics.predicates.map fun (ty, bounds) =>
    (ty.withoutLifetimes, Bound.allWithoutLifetimes bounds)

/-- The head of a routine without the lifetimes in it. -/
def Signature.withoutLifetimes (sig : Signature) : Signature where
  name := sig.name
  pos := sig.pos
  generics := sig.generics.withoutLifetimes
  params := sig.params.map Param.withoutLifetimes
  output := Ty.outputWithoutLifetimes sig.output

theorem Signature.renderParams_withoutLifetimes (sig : Signature) :
    sig.withoutLifetimes.renderParams = sig.renderParams := by
  unfold Signature.renderParams Signature.withoutLifetimes
  rw [List.filterMap_map]
  congr 1
  funext param
  cases param with
  | receiver => rfl
  | typed pat ty => exact congrArg some ty.render_withoutLifetimes

/-- **No lifetime is shown.** Whatever lifetimes are written in a type, and however deep, its text
is that of the type without them; that type has none left, and it is the type itself where there
were none. So the texts of a routine's parameters are those of the routine without lifetimes. -/
theorem render_without_lifetimes :
    (∀ t : Ty, t.withoutLifetimes.render = t.render ∧ t.withoutLifetimes.hasLifetimes = false ∧
      (t.withoutLifetimes = t ↔ t.hasLifetimes = false)) ∧
    ∀ sig : Signature, sig.withoutLifetimes.renderParams = sig.renderParams := by
  refine ⟨fun t => ⟨?_, ?_, ?_⟩, Signature.renderParams_withoutLifetimes⟩
  · exact t.render_withoutLifetimes
  · exact t.hasLifetimes_withoutLifetimes
  · exact t.withoutLifetimes_eq_self_iff

end Calligraph
