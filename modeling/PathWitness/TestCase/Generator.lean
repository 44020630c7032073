import PathWitness.TestCase.Case
import PathWitness.TestCase.Pool

/-!
# Test Classes

A generator collects the text of a test class: the reflective functions that
tests use, one test after another, and the end of the class. Tests are
numbered in the order of their paths, those that are passed over included.

A batch of paths is rendered by several workers. Every test is rendered by
itself and the texts are put together in the order of the paths, so the
workers cannot be told apart in the result.

## Main definitions

* `Generator`: The text so far and the number of tests.
* `Generator.prologue`, `Generator.epilogue`: The frame of a test class.
* `Generator.format`: One more test.
* `Generator.formatBatch`: Tests for a list of paths.
-/

namespace PathWitness

open TestCase

/-- The text of a test class so far. -/
structure Generator where
  /-- How tests are written. -/
  options : Options := {}
  /-- The text so far. -/
  output : String := ""
  /-- The number of the next test. -/
  count : Nat := 0
  deriving Repr, DecidableEq, Inhabited

namespace Generator

/-- The beginning of every test class, up to the name of the class. -/
def header : String :=
  "import org.junit.Test;\n" ++
  "import static org.junit.Assert.*;\n" ++
  "import java.lang.*;\n" ++
  "import java.util.*;\n" ++
  "import java.lang.reflect.Array;\n" ++
  "import java.lang.reflect.Field;\n" ++
  "\n" ++
  "public class "

/-- What follows the name of every test class: functions that read and write
    fields and elements by reflection. -/
def reflection : String :=
  "Test \x7b\n" ++
  "    private static Field __field(Class<?> c, String name) throws Exception \x7b\n" ++
  "        for (Class<?> k = c; k != null; k = k.getSuperclass()) \x7b\n" ++
  "            try \x7b\n" ++
  "                Field f = k.getDeclaredField(name);\n" ++
  "                f.setAccessible(true);\n" ++
  "                return f;\n" ++
  "            \x7d catch (NoSuchFieldException e) \x7b\n" ++
  "            \x7d\n" ++
  "        \x7d\n" ++
  "        throw new NoSuchFieldException(name);\n" ++
  "    \x7d\n" ++
  "\n" ++
  "    private static int __index(String step) \x7b\n" ++
  "        return Integer.parseInt(step.substring(1, step.length() - 1));\n" ++
  "    \x7d\n" ++
  "\n" ++
  "    private static Object __get(Object root, String... steps) throws Exception \x7b\n" ++
  "        Object o = root;\n" ++
  "        for (String s : steps) \x7b\n" ++
  "            o = s.startsWith(\"[\") ? Array.get(o, __index(s)) : " ++
  "__field(o.getClass(), s).get(o);\n" ++
  "        \x7d\n" ++
  "        return o;\n" ++
  "    \x7d\n" ++
  "\n" ++
  "    private static void __set(Object root, Object value, String... steps) " ++
  "throws Exception \x7b\n" ++
  "        Object o = __get(root, Arrays.copyOf(steps, steps.length - 1));\n" ++
  "        String last = steps[steps.length - 1];\n" ++
  "        if (last.startsWith(\"[\")) \x7b\n" ++
  "            Array.set(o, __index(last), value);\n" ++
  "        \x7d else \x7b\n" ++
  "            __field(o.getClass(), last).set(o, value);\n" ++
  "        \x7d\n" ++
  "    \x7d\n"

/-- The name of a test class without its ending: the class without its
    package, as an identifier. -/
def testClassName (className : String) : String :=
  let own := className.toList.reverse.takeWhile fun c => c != '/' && c != '.'
  identifierText (String.ofList own.reverse)

/-- Adds the beginning of a test class. -/
def prologue (g : Generator) (className : String) : Generator :=
  { g with output := g.output ++ header ++ testClassName className ++ reflection }

/-- Adds the end of a test class. -/
def epilogue (g : Generator) : Generator :=
  { g with output := g.output ++ "\x7d\n" }

/-- Drops the text and starts counting anew. -/
def clear (g : Generator) : Generator :=
  { g with output := "", count := 0 }

/-- Adds the test of a path. The number of the test is used up in any case. -/
def format (g : Generator) (p : FinishedPath) : Rendering × Generator :=
  let r := render g.options g.count p
  (r, { g with output := g.output ++ r.text, count := g.count + 1 })

/-- How many workers there are when nobody says: as many as the machine has processors.
    Four stands for their number, which changes how a batch is scheduled and not what
    comes of it. -/
def defaultWorkers : Nat := 4

/-- How many workers a batch has: no more than there are paths. -/
def workersFor (workers : Int) (paths : Nat) : Nat :=
  min (if workers ≤ 0 then defaultWorkers else workers.toNat) paths

/-- The outcome of a batch. -/
structure BatchResult where
  /-- The first error, in the order of the paths. -/
  error : Option BatchError := none
  /-- The lines that were told. -/
  lines : List String := []
  /-- The generator with the tests. -/
  generator : Generator

/-- The rendering of the path with an index, which is there for every job of a
    batch. -/
def renderAt (g : Generator) (paths : List FinishedPath) (i : Nat) : Rendering :=
  match paths[i]? with
  | some p => render g.options (g.count + i) p
  | none => {}

/-- Adds the renderings of a batch, in the order of the paths. -/
def addRenderings (g : Generator) (renderings : List Rendering) : BatchResult where
  error := renderings.findSome? (·.error)
  lines := renderings.flatMap (·.lines)
  generator :=
    { g with
      output := g.output ++ String.join (renderings.map (·.text))
      count := g.count + renderings.length }

/-- Adds the tests of a list of paths, rendered by several workers that move
    as a schedule says. All that can be rendered is added, and the first error
    is reported. Nothing is added when the batch is called off. -/
def formatBatch (g : Generator) (paths : List FinishedPath) (workers : Int) (canceled : Bool)
    (schedule : List Pool.Move := []) : BatchResult :=
  if canceled then { error := some .canceled, generator := g }
  else
    let n := workersFor workers paths.length
    let pool := Pool.run (g.renderAt paths) schedule n paths.length
    if pool.canceled then { error := some .canceled, generator := g }
    else
      let result := g.addRenderings (pool.results.map (·.getD {}))
      if g.options.verbose then
        { result with
          lines := result.lines ++
            ["[Oracle] Generated " ++ toString paths.length ++ " test cases with " ++ toString n ++
              " workers"] }
      else result

end Generator

end PathWitness
