import Linkage.Proofs.Link

/-!
# Warnings — what they do not depend on

A warning about a module is read off the module's index, off the names and offsets of its
definitions, off the names of its uses and off its instructions as they were read: their number,
and the positions that the external ones pick.  These are its outline (`Module.outline`), and
**modules with the same outlines have the same warnings** (`collectWarnings_congr`).

Linking keeps the outline, so a program and its image have the same warnings (`warningsOf_image`):
they do not depend on the machine, on the treatment of repeated definitions, or on any address.
-/

namespace Linkage

/-- What the warnings about a module look at. -/
structure Outline where
  index : Nat
  /-- The names and the offsets of the definitions. -/
  definitions : List (String × Option Int)
  /-- The names of the uses. -/
  uses : List String
  /-- The instructions as they were read, without their opcodes. -/
  instructions : List (Classification × Int)

namespace Module

/-- What the warnings about the module look at. -/
def outline (m : Module) : Outline where
  index := m.index
  definitions := m.definitions.map fun d => (d.name, d.relative)
  uses := m.uses.map Use.name
  instructions := m.instructions.map fun x => (x.classification, x.asRead)

variable {m m' : Module}

theorem length_eq_of_outline (h : m.outline = m'.outline) : m.length = m'.length := by
  have hlength (m : Module) : m.outline.instructions.length = m.length := List.length_map _
  rw [← hlength, h, hlength]

theorem sizeWarnings_congr (h : m.outline = m'.outline) : m.sizeWarnings = m'.sizeWarnings := by
  have hkeys (m : Module) : m.sizeWarnings = m.outline.definitions.filterMap
      fun k => (Definition.fresh k.1 k.2 none).beyondWarning? m := by
    show _ = (m.definitions.map _).filterMap _
    rw [List.filterMap_map]
    rfl
  have hindex : m.index = m'.index := congrArg Outline.index h
  rw [hkeys, hkeys, h]
  refine congrArg (fun f => m'.outline.definitions.filterMap f) (funext fun k => ?_)
  unfold Definition.beyondWarning?
  rw [hindex, length_eq_of_outline h]

theorem unusedWarnings_congr (h : m.outline = m'.outline) (names : List String) :
    m.unusedWarnings names = m'.unusedWarnings names := by
  have hkeys (m : Module) : m.unusedWarnings names =
      (m.outline.definitions.filter fun k => !names.contains k.1).map
        fun k => Warning.neverUsed m.index k.1 := by
    show _ = ((m.definitions.map _).filter _).map _
    rw [List.filter_map, List.map_map]
    rfl
  have hindex : m.index = m'.index := congrArg Outline.index h
  rw [hkeys, hkeys, h, hindex]

/-- Which uses external instructions pick is a matter of what was read. -/
theorem referenced_congr (h : m.outline = m'.outline) : m.referenced = m'.referenced := by
  have hkeys (m : Module) : m.referenced =
      (m.outline.instructions.filter (·.1 == .external)).map Prod.snd := by
    show _ = ((m.instructions.map _).filter _).map _
    rw [List.filter_map, List.map_map]
    rfl
  rw [hkeys, hkeys, h]

theorem unreferencedWarnings_congr (h : m.outline = m'.outline) :
    m.unreferencedWarnings = m'.unreferencedWarnings := by
  have hkeys (m : Module) : m.unreferencedWarnings =
      (m.outline.uses.zipIdx.filter fun site => !m.referenced.contains (site.2 : Int)).map
        fun site => Warning.neverReferenced m.index site.1 := by
    show _ = ((m.uses.map Use.name).zipIdx.filter _).map _
    rw [List.zipIdx_map, List.filter_map, List.map_map]
    rfl
  have hindex : m.index = m'.index := congrArg Outline.index h
  rw [hkeys, hkeys, h, hindex, referenced_congr h]

theorem warnings_congr (h : m.outline = m'.outline) (settings : Settings) (names : List String) :
    m.warnings settings names = m'.warnings settings names := by
  rw [warnings, sizeWarnings_congr h, unusedWarnings_congr h, unreferencedWarnings_congr h,
    warnings]

end Module

/-! ### Programs -/

section

variable {ms ms' : List Module}

theorem warningsOf_congr (h : ms.map Module.outline = ms'.map Module.outline)
    (settings : Settings) : warningsOf settings ms = warningsOf settings ms' := by
  have hused (ms : List Module) : usedNames ms = (ms.map Module.outline).flatMap Outline.uses := by
    rw [List.flatMap_map]
    rfl
  unfold warningsOf
  rw [hused, hused, h]
  generalize (ms'.map Module.outline).flatMap Outline.uses = names
  induction ms generalizing ms' with
  | nil => rw [List.map_eq_nil_iff.1 h.symm]
  | cons m ms ih =>
    obtain ⟨m', ms', rfl, hm, hms⟩ := List.map_eq_cons_iff.1 h.symm
    rw [List.flatMap_cons, List.flatMap_cons, ih hms.symm, Module.warnings_congr hm]

/-- **Modules with the same outlines have the same warnings.** -/
theorem collectWarnings_congr (h : ms.map Module.outline = ms'.map Module.outline)
    (settings : Settings) : collectWarnings settings ms = collectWarnings settings ms' := by
  have hoffsets (ms : List Module) : ms.all Module.hasOffsets =
      (ms.map Module.outline).all fun o => o.definitions.all (·.2.isSome) := by
    rw [List.all_map]
    refine congrArg ms.all (funext fun m => ?_)
    show _ = (m.definitions.map _).all _
    rw [List.all_map]
    rfl
  rw [collectWarnings, hoffsets, h, ← hoffsets, warningsOf_congr h, collectWarnings]

end

theorem Module.outline_linked_located (f : String → Option Int) (m : Module) :
    (m.located.linked f).outline = m.outline := by
  have hds : (m.definitions.map (Definition.located m)).map (fun d => (d.name, d.relative)) =
      m.definitions.map fun d => (d.name, d.relative) := by
    rw [List.map_map]
    refine List.map_congr_left fun d _ => ?_
    rw [Function.comp_apply, Definition.name_located, Definition.relative_located]
  have hxs : (m.instructions.map (m.located.linkedInstruction f)).map
      (fun x => (x.classification, x.asRead)) =
        m.instructions.map fun x => (x.classification, x.asRead) := List.map_map
  show Outline.mk m.index _ _ _ = _
  rw [outline, ← hds, ← hxs]
  rfl

/-- **A program and its image have the same warnings.** -/
theorem warningsOf_image (settings : Settings) (policy : PolicySetting) (s : Store) :
    warningsOf settings (s.image policy).modules = warningsOf settings s.modules := by
  refine warningsOf_congr ?_ settings
  rw [Store.modules_image, List.map_map]
  exact List.map_congr_left fun m _ => m.outline_linked_located _

end Linkage
