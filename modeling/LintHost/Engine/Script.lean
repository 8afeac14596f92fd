/-!
# The engine's script

The text that a child runs: it reads one request from its input, constructs an engine from the
package at the path that the request names, and writes one reply to its output. It serves both
interfaces that such packages have had.
-/

namespace LintHost.Engine

/-- The lines of the script. -/
def scriptLines : List String := [
  "const read = require('fs').readFileSync;",
  "const job = JSON.parse(read(0, 'utf8'));",
  "const pkg = require(job.eslintPath);",
  "const known = (e) => typeof e.getRules === 'function' ? e.getRules()",
  "  : e.linter && typeof e.linter.getRules === 'function' ? e.linter.getRules() : new Map();",
  "const metas = (map) => Object.fromEntries([...map].map(([id, r]) =>",
  "  [id, (r && r.meta) || Object.create(null)]));",
  "const first = (files) => files[0] || Object.create(null);",
  "const reply = (file, rules) => process.stdout.write(JSON.stringify(Object.assign(",
  "  Object.create(null), \x7bmessages: file.messages || [],",
  "  output: file.output === undefined ? null : file.output, rules\x7d)));",
  "const old = () => \x7b",
  "  const engine = new pkg.CLIEngine(job.options);",
  "  const file = job.mode === 'lint'",
  "    ? first(engine.executeOnText(job.text, job.filePath).results) : Object.create(null);",
  "  reply(file, metas(known(engine)));",
  "\x7d;",
  "const current = async () => \x7b",
  "  const given = job.options;",
  "  const options = \x7boverrideConfig: \x7brules: given.rules\x7d,",
  "    ignore: given.ignore, fix: given.fix\x7d;",
  "  if (given.ignorePath) options.ignorePath = given.ignorePath;",
  "  if (given.rulePaths && given.rulePaths.length) options.rulePaths = given.rulePaths;",
  "  if (given.configFile) options.overrideConfigFile = given.configFile;",
  "  const engine = new pkg.ESLint(options);",
  "  const files = job.mode === 'lint'",
  "    ? await engine.lintText(job.text, \x7bfilePath: job.filePath\x7d) : [];",
  "  const linter = pkg.Linter && new pkg.Linter();",
  "  reply(first(files), linter && typeof linter.getRules === 'function'",
  "    ? metas(linter.getRules())",
  "    : typeof engine.getRulesMetaForResults === 'function'",
  "      ? engine.getRulesMetaForResults(files) : Object.create(null));",
  "\x7d;",
  "(async () => (pkg.CLIEngine ? old() : current()))().catch((error) => \x7b",
  "  process.stderr.write(String((error && error.stack) || error));",
  "  process.exit(2);",
  "\x7d);"]

/-- The script. -/
def script : String := "\n".intercalate scriptLines ++ "\n"

end LintHost.Engine
