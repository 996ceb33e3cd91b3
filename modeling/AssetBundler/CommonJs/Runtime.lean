/-!
The script that registers modules and requires them by name.
-/

namespace AssetBundler.CommonJs

/-- The script keeps the definitions by name, runs each of them once, and resolves relative
names. -/
def runtimeLines : List String := [
    "(function (global) \x7b",
    "    if (typeof global.require === 'function' && global.require.register) \x7b",
    "        return;",
    "    \x7d",
    "",
    "    var definitions = \x7b\x7d;",
    "    var cache = \x7b\x7d;",
    "",
    "    function resolve(from, name) \x7b",
    "        if (name.charAt(0) !== '.') \x7b",
    "            return name;",
    "        \x7d",
    "",
    "        var parts = from.split('/');",
    "        parts.pop();",
    "",
    "        name.split('/').forEach(function (segment) \x7b",
    "            if (segment === '..') \x7b",
    "                parts.pop();",
    "            \x7d else if (segment !== '.') \x7b",
    "                parts.push(segment);",
    "            \x7d",
    "        \x7d);",
    "",
    "        return parts.join('/');",
    "    \x7d",
    "",
    "    function lookup(name) \x7b",
    "        if (definitions.hasOwnProperty(name)) \x7b",
    "            return name;",
    "        \x7d",
    "        if (definitions.hasOwnProperty(name + '/index')) \x7b",
    "            return name + '/index';",
    "        \x7d",
    "        return null;",
    "    \x7d",
    "",
    "    function localRequire(from) \x7b",
    "        return function (name) \x7b",
    "            return require(resolve(from, name));",
    "        \x7d;",
    "    \x7d",
    "",
    "    function require(name) \x7b",
    "        var id = lookup(name);",
    "        if (id === null) \x7b",
    "            throw new Error('Cannot find module \"' + name + '\"');",
    "        \x7d",
    "",
    "        if (!cache.hasOwnProperty(id)) \x7b",
    "            var module = \x7bid: id, exports: \x7b\x7d\x7d;",
    "            cache[id] = module;",
    "            definitions[id].call(module.exports, module.exports, localRequire(id), module);",
    "        \x7d",
    "",
    "        return cache[id].exports;",
    "    \x7d",
    "",
    "    require.register = function (name, definition) \x7b",
    "        definitions[name] = definition;",
    "    \x7d;",
    "",
    "    require.list = function () \x7b",
    "        return Object.keys(definitions);",
    "    \x7d;",
    "",
    "    global.require = require;",
    "\x7d)(typeof window !== 'undefined' ? window : this);"]

/-- Every line ends with a line feed. -/
def runtime : String := String.join (runtimeLines.map (· ++ "\n"))

end AssetBundler.CommonJs
